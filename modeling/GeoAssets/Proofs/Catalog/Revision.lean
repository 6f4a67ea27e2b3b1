import GeoAssets.Catalog.Store.Assets
import GeoAssets.Catalog.Store.Tasks
import GeoAssets.Catalog.Store.Versions
import GeoAssets.Proofs.Directory
import Mathlib.Data.List.Basic

/-!
# Revisions of the store

Most operations on the store change records in their places: no record is filed or removed, and
what tells a record from others stays. `Asset.Becomes`, `Task.Becomes` and `Version.Becomes` say how
a record may change, and `Store.Revises` says which changes an operation makes, record by record.
-/

namespace GeoAssets

/-! ## How records change -/

/-- How an asset may change: its log grows, and a final status stays. -/
structure Asset.Becomes (a b : Asset) : Prop where
  same : b = { a with
    status := b.status
    metadata := b.metadata
    expectedTasks := b.expectedTasks
    log := b.log }
  log : a.log <+: b.log
  final : a.status.isTerminal = true → b.status = a.status

namespace Asset.Becomes

variable {a b c : Asset}

theorem refl (a : Asset) : a.Becomes a := ⟨rfl, List.prefix_refl _, fun _ => rfl⟩

theorem trans (h₁ : a.Becomes b) (h₂ : b.Becomes c) : a.Becomes c where
  same := by
    rw [h₂.same, h₁.same]
  log := h₁.log.trans h₂.log
  final := fun h => by
    have hb : b.status = a.status := h₁.final h
    rw [h₂.final (by rw [hb]; exact h), hb]

theorem id (h : a.Becomes b) : b.id = a.id := by rw [h.same]

theorem key (h : a.Becomes b) : b.key = a.key := by rw [h.same]

theorem type (h : a.Becomes b) : b.type = a.type := by rw [h.same]

theorem uri (h : a.Becomes b) : b.uri = a.uri := by rw [h.same]

theorem isDefault (h : a.Becomes b) : b.isDefault = a.isDefault := by rw [h.same]

end Asset.Becomes

/-- How a task may change: its log grows. -/
structure Task.Becomes (t u : Task) : Prop where
  id : u.id = t.id
  asset : u.asset = t.asset
  log : t.log <+: u.log

namespace Task.Becomes

variable {t u v : Task}

theorem refl (t : Task) : t.Becomes t := ⟨rfl, rfl, List.prefix_refl _⟩

theorem trans (h₁ : t.Becomes u) (h₂ : u.Becomes v) : t.Becomes v :=
  ⟨h₂.id.trans h₁.id, h₂.asset.trans h₁.asset, h₁.log.trans h₂.log⟩

end Task.Becomes

/-- How a version may change: its log grows. -/
structure Version.Becomes (v w : Version) : Prop where
  same : w = { v with isLatest := w.isLatest, status := w.status, log := w.log }
  log : v.log <+: w.log

theorem Version.Becomes.refl (v : Version) : v.Becomes v := ⟨rfl, List.prefix_refl _⟩

theorem Version.Becomes.key {v w : Version} (h : v.Becomes w) : w.key = v.key := by rw [h.same]

/-! ## Revisions -/

namespace Store

/-- The ids of the tasks of an asset, oldest first. -/
def taskIds (s : Store) (x : AssetId) : List TaskId :=
  (s.assetTasks.get? x).getD []

/-- A store with every asset, version and task changed in its place. -/
structure Revises (s s' : Store) (f : AssetId → Asset → Asset) (g : VersionKey → Version → Version)
    (h : TaskId → Task → Task) : Prop where
  datasets : s'.datasets = s.datasets
  versions : ∀ k, s'.versions.get? k = (s.versions.get? k).map (g k)
  assets : ∀ id, s'.assets.get? id = (s.assets.get? id).map (f id)
  places : s'.places = s.places
  tasks : ∀ id, s'.tasks.get? id = (s.tasks.get? id).map (h id)
  assetTasks : s'.assetTasks = s.assetTasks
  keys : s'.assets.keys = s.assets.keys

/-- The change of one record. -/
def only {κ ν : Type} [DecidableEq κ] (k : κ) (f : ν → ν) (k' : κ) (v : ν) : ν :=
  if k' = k then f v else v

/-- No record is changed. -/
def nothing {κ ν : Type} (_ : κ) (v : ν) : ν := v

section only

variable {κ ν : Type} [DecidableEq κ]

theorem only_self (k : κ) (f : ν → ν) (v : ν) : only k f k v = f v := if_pos rfl

theorem only_of_ne {k k' : κ} (h : k' ≠ k) (f : ν → ν) (v : ν) : only k f k' v = v := if_neg h

/-- What holds of a record, changed or not. -/
theorem only_holds {k k' : κ} {f : ν → ν} {v : ν} {p : ν → Prop} (hf : k' = k → p (f v))
    (hv : p v) : p (only k f k' v) := by
  by_cases h : k' = k
  · rw [h, only_self]
    exact hf h
  · rw [only_of_ne h]
    exact hv

end only

variable {s s' : Store} {f : AssetId → Asset → Asset} {g : VersionKey → Version → Version}
  {h : TaskId → Task → Task}

theorem map_nothing {κ ν : Type} (k : κ) (v : Option ν) : v.map (nothing k) = v := by
  cases v <;> rfl

namespace Revises

theorem refl (s : Store) : Revises s s nothing nothing nothing where
  datasets := rfl
  versions := fun k => (map_nothing k _).symm
  assets := fun id => (map_nothing id _).symm
  places := rfl
  tasks := fun id => (map_nothing id _).symm
  assetTasks := rfl
  keys := rfl

theorem taskIds (r : Revises s s' f g h) (x : AssetId) : s'.taskIds x = s.taskIds x := by
  rw [Store.taskIds, r.assetTasks, Store.taskIds]

/-- A record that is there after a revision was there before. -/
theorem exists_asset (r : Revises s s' f g h) {id : AssetId} {b : Asset}
    (hb : s'.assets.get? id = some b) : ∃ a, s.assets.get? id = some a ∧ f id a = b := by
  rwa [r.assets, Option.map_eq_some_iff] at hb

theorem exists_version (r : Revises s s' f g h) {k : VersionKey} {w : Version}
    (hw : s'.versions.get? k = some w) : ∃ v, s.versions.get? k = some v ∧ g k v = w := by
  rwa [r.versions, Option.map_eq_some_iff] at hw

theorem exists_task (r : Revises s s' f g h) {id : TaskId} {u : Task}
    (hu : s'.tasks.get? id = some u) : ∃ t, s.tasks.get? id = some t ∧ h id t = u := by
  rwa [r.tasks, Option.map_eq_some_iff] at hu

/-- The tasks of an asset after a revision. -/
theorem tasksOf (r : Revises s s' f g h) (hkey : ∀ id t, s.tasks.get? id = some t → t.id = id)
    (x : AssetId) : s'.tasksOf x = (s.tasksOf x).map fun t => h t.id t := by
  have hids : (s'.assetTasks.get? x).getD [] = s.taskIds x := r.taskIds x
  rw [Store.tasksOf, hids]
  show (s.taskIds x).filterMap s'.tasks.get? = ((s.taskIds x).filterMap s.tasks.get?).map _
  rw [List.map_filterMap]
  refine List.filterMap_congr fun id _ => ?_
  rw [r.tasks]
  cases ht : s.tasks.get? id with
  | none => rfl
  | some t => rw [Option.map_some, Option.map_some, hkey id t ht]

end Revises

/-! ## The revisions of single operations -/

theorem updateAsset_eq_ok {id : AssetId} {change : Asset → Asset}
    (hs : s.updateAsset id change = .ok s') :
    ∃ a, s.assets.get? id = some a ∧ s' = { s with assets := s.assets.insert id (change a) } := by
  simp only [updateAsset, bind_eq_ok_iff, Store.asset, orElseFail_eq_ok_iff] at hs
  obtain ⟨a, ha, hs⟩ := hs
  cases hs
  exact ⟨a, ha, rfl⟩

theorem updateAsset_eq_error {id : AssetId} {change : Asset → Asset} {e : Error}
    (hs : s.updateAsset id change = .error e) : s.assets.get? id = none := by
  unfold updateAsset Store.asset at hs
  cases ha : s.assets.get? id with
  | none => rfl
  | some a =>
    rw [ha] at hs
    cases hs

/-- Replacing an asset in its place. -/
theorem insertAsset_revises {id : AssetId} {a : Asset} (ha : s.assets.get? id = some a)
    (change : Asset → Asset) :
    Revises s { s with assets := s.assets.insert id (change a) } (only id change) nothing nothing :=
  { Revises.refl s with
    assets := Directory.get?_insert_of_some ha change
    keys := Directory.keys_insert_of_some ha _ }

theorem updateAsset_revises {id : AssetId} {change : Asset → Asset}
    (hs : s.updateAsset id change = .ok s') :
    Revises s s' (only id change) nothing nothing := by
  obtain ⟨a, ha, rfl⟩ := updateAsset_eq_ok hs
  exact insertAsset_revises ha change

theorem appendVersionLog_eq_ok {key : VersionKey} {e : LogEntry}
    (hs : s.appendVersionLog key e = .ok s') : ∃ v, s.versions.get? key = some v ∧
      s' = { s with versions := s.versions.insert key { v with log := v.log ++ [e] } } := by
  simp only [appendVersionLog, bind_eq_ok_iff, Store.version, orElseFail_eq_ok_iff] at hs
  obtain ⟨v, hv, hs⟩ := hs
  cases hs
  exact ⟨v, hv, rfl⟩

theorem appendVersionLog_revises {key : VersionKey} {e : LogEntry}
    (hs : s.appendVersionLog key e = .ok s') :
    Revises s s' nothing (only key fun v => { v with log := v.log ++ [e] }) nothing := by
  obtain ⟨v, hv, rfl⟩ := appendVersionLog_eq_ok hs
  exact { Revises.refl s with
    versions := Directory.get?_insert_of_some hv fun v => { v with log := v.log ++ [e] } }

theorem appendTaskLog_eq_ok {id : TaskId} {e : LogEntry} {u : Task}
    (hs : s.appendTaskLog id e = .ok (u, s')) : ∃ t, s.tasks.get? id = some t ∧
      u = { t with log := t.log ++ [e] } ∧ s' = { s with tasks := s.tasks.insert id u } := by
  simp only [appendTaskLog, bind_eq_ok_iff, Store.task, orElseFail_eq_ok_iff] at hs
  obtain ⟨t, ht, hs⟩ := hs
  cases hs
  exact ⟨t, ht, rfl, rfl⟩

theorem appendTaskLog_revises {id : TaskId} {e : LogEntry} {u : Task}
    (hs : s.appendTaskLog id e = .ok (u, s')) :
    Revises s s' nothing nothing (only id fun t => { t with log := t.log ++ [e] }) := by
  obtain ⟨t, ht, rfl, rfl⟩ := appendTaskLog_eq_ok hs
  exact { Revises.refl s with
    tasks := Directory.get?_insert_of_some ht fun t => { t with log := t.log ++ [e] } }

/-- Taking the tag of the latest version from other versions. -/
theorem demoteOthers_revises (s : Store) (key : VersionKey) :
    Revises s (s.demoteOthers key) nothing
      (fun k v => if k.dataset = key.dataset ∧ k ≠ key then { v with isLatest := false } else v)
      nothing :=
  { Revises.refl s with versions := Directory.get?_mapValues s.versions _ }

theorem setLatest_revises {key : VersionKey} {v : Version}
    (hs : s.setLatest key = .ok (v, s')) : ∃ latest : VersionKey → Version → Bool,
      Revises s s' nothing (fun k v => { v with isLatest := latest k v }) nothing := by
  simp only [setLatest, bind_eq_ok_iff, Store.version, orElseFail_eq_ok_iff] at hs
  obtain ⟨u, hu, hs⟩ := hs
  cases hs
  refine ⟨fun k v => if k = key then true else
    if k.dataset = key.dataset then false else v.isLatest, { Revises.refl s with versions := ?_ }⟩
  intro k
  show ((s.demoteOthers key).versions.insert key { u with isLatest := true }).get? k = _
  rw [Directory.get?_insert, (demoteOthers_revises s key).versions]
  by_cases hk : key = k
  · subst hk
    simp [hu]
  · have hne : ¬ k = key := fun e => hk e.symm
    rw [if_neg hk]
    congr 1
    funext v
    by_cases hd : k.dataset = key.dataset <;> simp [hd, hne]

/-- A transition of a pending asset changes the asset, and the version that follows it. -/
theorem commit_of_pending {t : Transition} {a : Asset} (ha : s.assets.get? t.asset = some a)
    (hp : a.status.isTerminal = false) :
    ∃ s', s.commit t = (.applied (t.applyAsset a) (t.version.bind fun change =>
        (s.versions.get? a.key).map (Transition.applyVersion change)), s') ∧
      Revises s s' (only t.asset t.applyAsset)
        (only a.key fun v => t.version.elim v fun change => Transition.applyVersion change v)
        nothing := by
  have hr := insertAsset_revises ha t.applyAsset
  have hkey : (t.applyAsset a).key = a.key := rfl
  rw [commit, ha]
  simp only [hp, Bool.false_eq_true, if_false, hkey]
  cases ht : t.version with
  | none =>
    refine ⟨_, rfl, { hr with versions := fun k => ?_ }⟩
    show s.versions.get? k = _
    cases s.versions.get? k <;> simp [only]
  | some change =>
    cases hv : s.versions.get? a.key with
    | none =>
      refine ⟨_, rfl, { hr with versions := fun k => ?_ }⟩
      show s.versions.get? k = _
      by_cases hk : k = a.key
      · subst hk
        rw [hv]
        rfl
      · cases s.versions.get? k <;> simp [only, hk]
    | some v =>
      refine ⟨_, rfl, { hr with versions := ?_ }⟩
      exact Directory.get?_insert_of_some hv (Transition.applyVersion change)

end Store

end GeoAssets
