import GeoAssets.Proofs.Catalog.WellFormed

/-!
# Operations on the store

The operations on the store as data (`Store.Operation`), with the stores that they lead to
(`Store.Performs`). Seen from one asset an operation does little: the asset and its tasks change as
`onAsset` and `onTasks` say, unless the asset is removed. Seen from one version it is the same.
-/

namespace GeoAssets

/-- Nothing has happened to a new asset. -/
structure Asset.IsNew (a : Asset) : Prop where
  status : a.status = .pending
  expectedTasks : a.expectedTasks = none
  log : a.log = []

/-- A transition that ends the work on an asset; the version follows if the asset is the default
one. -/
structure Transition.Settles (t : Transition) (a : Asset) : Prop where
  asset : t.asset = a.id
  status : t.status.isTerminal = true
  version : t.version = if a.isDefault then some (t.status, t.entry) else none

namespace Store

/-! ## Operations -/

/-- Something that is done to the store. -/
inductive Operation where
  | createDataset (d : Dataset)
  | deleteDataset (name : String)
  | createVersion (v : Version) (a : Asset)
  | setLatest (key : VersionKey)
  | appendVersionLog (key : VersionKey) (e : LogEntry)
  | deleteVersion (key : VersionKey)
  | createAsset (a : Asset)
  | deleteAsset (id : AssetId)
  | setExpectedTasks (id : AssetId) (count : UInt32)
  | appendAssetLog (id : AssetId) (e : LogEntry)
  /-- Applies a transition to a pending asset. -/
  | commit (a : Asset) (t : Transition)
  | createTask (t : Task)
  | appendTaskLog (id : TaskId) (e : LogEntry)

/-- The store to which an operation leads that succeeds. -/
inductive Performs (s : Store) : Operation → Store → Prop where
  | createDataset {d : Dataset} {s' : Store} (h : s.createDataset d = .ok s') :
    Performs s (.createDataset d) s'
  | deleteDataset {name : String} {d : Dataset} {s' : Store}
    (h : s.deleteDataset name = .ok (d, s')) : Performs s (.deleteDataset name) s'
  | createVersion {v : Version} {a : Asset} {s' : Store} (hkey : a.key = v.key)
    (hdefault : a.isDefault = true) (hnew : a.IsNew) (hpending : v.status = .pending)
    (hid : s.assets.get? a.id = none) (h : s.createVersion v a = .ok s') :
    Performs s (.createVersion v a) s'
  | setLatest {key : VersionKey} {v : Version} {s' : Store} (h : s.setLatest key = .ok (v, s')) :
    Performs s (.setLatest key) s'
  | appendVersionLog {key : VersionKey} {e : LogEntry} {s' : Store}
    (h : s.appendVersionLog key e = .ok s') : Performs s (.appendVersionLog key e) s'
  | deleteVersion {key : VersionKey} {v : Version} {s' : Store}
    (h : s.deleteVersion key = .ok (v, s')) : Performs s (.deleteVersion key) s'
  | createAsset {a : Asset} {s' : Store} (hnew : a.IsNew) (h : s.createAsset a = .ok s') :
    Performs s (.createAsset a) s'
  | deleteAsset {id : AssetId} {a : Asset} {s' : Store} (h : s.deleteAsset id = .ok (a, s')) :
    Performs s (.deleteAsset id) s'
  | setExpectedTasks {id : AssetId} {count : UInt32} {s' : Store}
    (h : s.setExpectedTasks id count = .ok s') : Performs s (.setExpectedTasks id count) s'
  | appendAssetLog {id : AssetId} {e : LogEntry} {s' : Store}
    (h : s.appendAssetLog id e = .ok s') : Performs s (.appendAssetLog id e) s'
  | commit {a : Asset} {t : Transition} {r : CommitResult} {s' : Store}
    (ha : s.assets.get? t.asset = some a) (hpending : a.status = .pending) (ht : t.Settles a)
    (h : s.commit t = (r, s')) : Performs s (.commit a t) s'
  | createTask {t : Task} {s' : Store} (h : s.createTask t = (.ok (), s')) :
    Performs s (.createTask t) s'
  | appendTaskLog {id : TaskId} {e : LogEntry} {t : Task} {s' : Store}
    (h : s.appendTaskLog id e = .ok (t, s')) : Performs s (.appendTaskLog id e) s'

namespace Operation

/-! ## What operations do to records -/

/-- What becomes of an asset that is not removed. -/
def onAsset : Operation → AssetId → Asset → Asset
  | .setExpectedTasks id count => only id fun a => { a with expectedTasks := some count }
  | .appendAssetLog id e => only id fun a => { a with log := a.log ++ [e] }
  | .commit _ t => only t.asset t.applyAsset
  | _ => nothing

/-- What becomes of a task whose asset is not removed. -/
def onTask : Operation → TaskId → Task → Task
  | .appendTaskLog id e => only id fun t => { t with log := t.log ++ [e] }
  | _ => nothing

/-- What becomes of the tasks of an asset that is not removed. -/
def onTasks : Operation → AssetId → List Task → List Task
  | .createTask t, x, ts => if t.asset = x then ts ++ [t] else ts
  | op, _, ts => ts.map fun t => op.onTask t.id t

/-- What becomes of a version that is not removed, but for the tag of the latest version. -/
def onVersion : Operation → VersionKey → Version → Version
  | .appendVersionLog key e => only key fun v => { v with log := v.log ++ [e] }
  | .commit a t =>
    only a.key fun v => t.version.elim v fun change => Transition.applyVersion change v
  | _ => nothing

/-- The asset that is filed. -/
def files? : Operation → Option Asset
  | .createVersion _ a | .createAsset a => some a
  | _ => none

/-- The task that is recorded. -/
def records? : Operation → Option Task
  | .createTask t => some t
  | _ => none

/-- Decides whether callers ask for the operation. -/
def isRequest : Operation → Bool
  | .createDataset _ | .deleteDataset _ | .createVersion .. | .setLatest _ | .deleteVersion _
  | .createAsset _ | .deleteAsset _ => true
  | _ => false

/-- Decides whether records are only changed in their places. -/
def isInPlace : Operation → Bool
  | .setLatest _ | .appendVersionLog .. | .setExpectedTasks .. | .appendAssetLog .. | .commit ..
  | .appendTaskLog .. => true
  | _ => false

theorem onAsset_of_isRequest {op : Operation} (h : op.isRequest = true) (x : AssetId) (a : Asset) :
    op.onAsset x a = a := by
  cases op <;> first | rfl | cases h

/-- An operation that neither records nor changes a task leaves the tasks of an asset alone. -/
theorem onTasks_of_nothing {op : Operation} (h : op.onTask = nothing) (hr : op.records? = none)
    (x : AssetId) (ts : List Task) : op.onTasks x ts = ts := by
  have hmap : (ts.map fun t => op.onTask t.id t) = ts := by
    rw [h]
    exact List.map_id' ts
  cases op with
  | createTask => cases hr
  | _ => exact hmap

theorem onTasks_of_isRequest {op : Operation} (h : op.isRequest = true) (x : AssetId)
    (ts : List Task) : op.onTasks x ts = ts := by
  cases op <;> first | exact List.map_id' ts | cases h

end Operation

variable {s s' : Store} {op : Operation}

/-- Before a version is filed, others may lose the tag of the latest version, but nothing else. -/
theorem before_createVersion (s : Store) (v : Version) :
    (if v.isLatest then s.demoteOthers v.key else s).assets = s.assets ∧
      (∀ x, (if v.isLatest then s.demoteOthers v.key else s).tasksOf x = s.tasksOf x) ∧
      (if v.isLatest then s.demoteOthers v.key else s).tasks = s.tasks := by
  split
  · exact ⟨rfl, fun _ => rfl, rfl⟩
  · exact ⟨rfl, fun _ => rfl, rfl⟩

namespace Performs

/-! ## How records change -/

theorem becomes_onAsset (h : s.Performs op s') {x : AssetId} {a : Asset}
    (ha : s.assets.get? x = some a) : a.Becomes (op.onAsset x a) := by
  cases h with
  | setExpectedTasks =>
    rw [Operation.onAsset]
    refine only_holds (p := a.Becomes) (fun _ => ?_) (.refl a)
    exact ⟨rfl, List.prefix_refl _, fun _ => rfl⟩
  | appendAssetLog =>
    rw [Operation.onAsset]
    refine only_holds (p := a.Becomes) (fun _ => ?_) (.refl a)
    exact ⟨rfl, List.prefix_append _ _, fun _ => rfl⟩
  | commit hb hpending =>
    rw [Operation.onAsset]
    refine only_holds (p := a.Becomes) (fun he => ?_) (.refl a)
    refine ⟨rfl, List.prefix_append _ _, ?_⟩
    -- the asset is pending, so no final status is lost
    intro hf
    rw [he, hb] at ha
    cases ha
    rw [hpending] at hf
    cases hf
  | _ => exact .refl a

theorem becomes_onTask (op : Operation) (id : TaskId) (t : Task) : t.Becomes (op.onTask id t) := by
  cases op with
  | appendTaskLog =>
    rw [Operation.onTask]
    refine only_holds (p := t.Becomes) (fun _ => ?_) (.refl t)
    exact ⟨rfl, rfl, List.prefix_append _ _⟩
  | _ => exact .refl t

theorem becomes_onVersion (op : Operation) (k : VersionKey) (v : Version) (latest : Bool) :
    v.Becomes { op.onVersion k v with isLatest := latest } := by
  have hv : v.Becomes { v with isLatest := latest } := ⟨rfl, List.prefix_refl _⟩
  cases op with
  | appendVersionLog key e =>
    rw [Operation.onVersion]
    refine only_holds (p := fun w : Version => v.Becomes { w with isLatest := latest })
      (fun _ => ?_) hv
    exact ⟨rfl, List.prefix_append _ _⟩
  | commit b t =>
    rw [Operation.onVersion]
    refine only_holds (p := fun w : Version => v.Becomes { w with isLatest := latest })
      (fun _ => ?_) hv
    cases t.version with
    | none => exact hv
    | some change => exact ⟨rfl, List.prefix_append _ _⟩
  | _ => exact hv

/-- An operation in place changes each record as it says. -/
theorem revises (h : s.Performs op s') (hi : op.isInPlace = true) :
    ∃ latest : VersionKey → Version → Bool, Revises s s' op.onAsset
      (fun k v => { op.onVersion k v with isLatest := latest k v }) op.onTask := by
  cases h with
  | setLatest h => exact setLatest_revises h
  | appendVersionLog h =>
    refine ⟨fun _ v => v.isLatest, { appendVersionLog_revises h with versions := fun k => ?_ }⟩
    rw [(appendVersionLog_revises h).versions]
    refine congrArg (Option.map · _) (funext fun v => ?_)
    rw [Operation.onVersion]
    refine only_holds (p := fun w : Version => w = { w with isLatest := v.isLatest })
      (fun _ => ?_) ?_
    · rfl
    · rfl
  | setExpectedTasks h => exact ⟨fun _ v => v.isLatest, updateAsset_revises h⟩
  | appendAssetLog h => exact ⟨fun _ v => v.isLatest, updateAsset_revises h⟩
  | @commit a t _ _ ha hpending _ h =>
    obtain ⟨_, hc, r⟩ := commit_of_pending ha (Status.isTerminal_eq_false_iff.mpr hpending)
    rw [hc] at h
    cases h
    refine ⟨fun _ v => v.isLatest, { r with versions := fun k => ?_ }⟩
    rw [r.versions]
    refine congrArg (Option.map · _) (funext fun v => ?_)
    rw [Operation.onVersion]
    refine only_holds (p := fun w : Version => w = { w with isLatest := v.isLatest })
      (fun _ => ?_) ?_
    · cases t.version <;> rfl
    · rfl
  | appendTaskLog h => exact ⟨fun _ v => v.isLatest, appendTaskLog_revises h⟩
  | _ => cases hi

/-- Every operation keeps the store well-formed. -/
theorem wellFormed (h : s.Performs op s') (hw : s.WellFormed) : s'.WellFormed := by
  by_cases hi : op.isInPlace = true
  · obtain ⟨latest, r⟩ := h.revises hi
    exact hw.revise r (fun _ _ ha => h.becomes_onAsset ha)
      (fun k v _ => becomes_onVersion op k v (latest k v)) fun id t _ => becomes_onTask op id t
  · cases h with
    | createDataset h => exact hw.createDataset h
    | deleteDataset h => exact hw.deleteDataset h
    | createVersion hkey _ _ _ hid h => exact hw.createVersion hkey hid h
    | deleteVersion h => exact (hw.deleteVersion_eq_ok h).1
    | createAsset _ h => exact hw.createAsset h
    | deleteAsset h => exact hw.deleteAsset h
    | createTask h => exact hw.createTask h
    | _ => exact absurd rfl hi

/-! ## Assets -/

theorem map_onTask_of_nothing {op : Operation} (h : op.onTask = nothing) (ts : List Task) :
    (ts.map fun t => op.onTask t.id t) = ts := by
  rw [h]
  exact List.map_id' ts

/-- An asset that is there is removed or changes as the operation says, and so do its tasks. -/
theorem asset_of_some (h : s.Performs op s') (hw : s.WellFormed) {x : AssetId} {a : Asset}
    (ha : s.assets.get? x = some a) :
    (s'.assets.get? x = none ∧
        (op = .deleteAsset x ∧ a.isDefault = false ∨ op = .deleteVersion a.key)) ∨
      (s'.assets.get? x = some (op.onAsset x a) ∧ s'.tasksOf x = op.onTasks x (s.tasksOf x)) := by
  by_cases hi : op.isInPlace = true
  · right
    obtain ⟨latest, r⟩ := h.revises hi
    constructor
    · rw [r.assets, ha, Option.map_some]
    · rw [r.tasksOf hw.task_id]
      cases op with
      | createTask => cases hi
      | _ => rfl
  · cases h with
    | createDataset h =>
      right
      obtain rfl := createDataset_eq_ok h
      exact ⟨ha, (map_onTask_of_nothing rfl _).symm⟩
    | deleteDataset h =>
      right
      obtain ⟨_, rfl⟩ := deleteDataset_eq_ok h
      exact ⟨ha, (map_onTask_of_nothing rfl _).symm⟩
    | @createVersion v b _ _ _ _ _ hid h =>
      right
      obtain ⟨_, _, _, rfl⟩ := createVersion_eq_ok h
      -- the default asset comes with a new id
      have hne : b.id ≠ x := by
        rintro rfl
        rw [hid] at ha
        cases ha
      obtain ⟨hassets, htasks, _⟩ := s.before_createVersion v
      constructor
      · show (Directory.insert _ b.id b).get? x = some a
        rw [Directory.get?_insert_of_ne hne, hassets]
        exact ha
      · rw [Operation.onTasks, map_onTask_of_nothing rfl]
        · exact htasks x
        · intro _ he
          cases he
    | @createAsset b _ _ h =>
      right
      obtain ⟨_, hid, _, _, rfl⟩ := createAsset_eq_ok h
      have hne : b.id ≠ x := by
        rintro rfl
        rw [hid] at ha
        cases ha
      constructor
      · show (Directory.insert _ b.id b).get? x = some a
        rw [Directory.get?_insert_of_ne hne]
        exact ha
      · exact (map_onTask_of_nothing rfl _).symm
    | @deleteAsset id b _ h =>
      obtain ⟨hb, hdef, rfl⟩ := deleteAsset_eq_ok h
      have hbid : b.id = id := hw.asset_id id b hb
      by_cases he : id = x
      · left
        subst he
        rw [hb] at ha
        cases ha
        refine ⟨?_, Or.inl ⟨rfl, hdef⟩⟩
        show (Directory.erase _ a.id).get? id = none
        rw [hbid, Directory.get?_erase_self]
      · right
        rw [← hbid] at he
        constructor
        · show (Directory.erase _ b.id).get? x = some a
          rw [Directory.get?_erase_of_ne he]
          exact ha
        · rw [hw.tasksOf_removeAsset, if_neg he]
          exact (map_onTask_of_nothing rfl _).symm
    | @deleteVersion key v _ h =>
      -- the assets of the version go with it, and no other
      obtain ⟨_, _, _, hassets, htasks⟩ := hw.deleteVersion_eq_ok h
      by_cases hk : a.key = key
      · left
        rw [hassets, ha, Option.filter_some_neg (by simp [hk]), hk]
        exact ⟨rfl, Or.inr rfl⟩
      · right
        constructor
        · rw [hassets, ha, Option.filter_some_pos (by simp [hk])]
          rfl
        · rw [htasks x a ha hk]
          exact (map_onTask_of_nothing rfl _).symm
    | createTask h =>
      right
      constructor
      · obtain ⟨_, _, rfl⟩ := createTask_eq_ok h
        exact ha
      · exact hw.tasksOf_createTask h x
    | _ => exact absurd rfl hi

/-- An asset that was not there before was filed, and is new. -/
theorem asset_of_none (h : s.Performs op s') (hw : s.WellFormed) {x : AssetId} {b : Asset}
    (hx : s.assets.get? x = none) (hb : s'.assets.get? x = some b) :
    op.files? = some b ∧ b.id = x ∧ b.IsNew ∧ s'.tasksOf x = [] := by
  have hid : b.id = x := (h.wellFormed hw).asset_id x b hb
  have htasks : s.tasksOf x = [] := by
    show (s.taskIds x).filterMap s.tasks.get? = []
    rw [hw.taskIds_eq_nil hx]
    rfl
  by_cases hi : op.isInPlace = true
  · obtain ⟨latest, r⟩ := h.revises hi
    rw [r.assets, hx] at hb
    cases hb
  · cases h with
    | createDataset h =>
      obtain rfl := createDataset_eq_ok h
      rw [hx] at hb
      cases hb
    | deleteDataset h =>
      obtain ⟨_, rfl⟩ := deleteDataset_eq_ok h
      rw [hx] at hb
      cases hb
    | @createVersion v a _ _ _ hnew _ _ h =>
      obtain ⟨_, _, _, rfl⟩ := createVersion_eq_ok h
      obtain ⟨hassets, hbefore, _⟩ := s.before_createVersion v
      change (Directory.insert _ a.id a).get? x = some b at hb
      rw [Directory.get?_insert, hassets, hx] at hb
      split at hb
      · cases hb
        exact ⟨rfl, hid, hnew, (hbefore x).trans htasks⟩
      · cases hb
    | @createAsset a _ hnew h =>
      obtain ⟨_, _, _, _, rfl⟩ := createAsset_eq_ok h
      change (Directory.insert _ a.id a).get? x = some b at hb
      rw [Directory.get?_insert, hx] at hb
      split at hb
      · cases hb
        exact ⟨rfl, hid, hnew, htasks⟩
      · cases hb
    | @deleteAsset id a _ h =>
      obtain ⟨_, _, rfl⟩ := deleteAsset_eq_ok h
      change (Directory.erase _ a.id).get? x = some b at hb
      rw [Directory.get?_erase, hx] at hb
      split at hb
      · cases hb
      · cases hb
    | deleteVersion h =>
      obtain ⟨_, _, _, hassets, _⟩ := hw.deleteVersion_eq_ok h
      rw [hassets, hx] at hb
      cases hb
    | createTask h =>
      obtain ⟨_, _, rfl⟩ := createTask_eq_ok h
      change s.assets.get? x = some b at hb
      rw [hx] at hb
      cases hb
    | _ => exact absurd rfl hi

/-- A filed asset is there. -/
theorem asset_of_files (h : s.Performs op s') {a : Asset} (hf : op.files? = some a) :
    s'.assets.get? a.id = some a := by
  have hthere : ∀ s : Store, (s.fileAsset a).assets.get? a.id = some a :=
    fun s => Directory.get?_insert_self s.assets a.id a
  cases h with
  | createVersion _ _ _ _ _ h =>
    cases hf
    obtain ⟨_, _, _, rfl⟩ := createVersion_eq_ok h
    exact hthere _
  | createAsset _ h =>
    cases hf
    obtain ⟨_, _, _, _, rfl⟩ := createAsset_eq_ok h
    exact hthere _
  | _ => cases hf

/-- A task that was not there before was recorded. -/
theorem task_of_none (h : s.Performs op s') (hw : s.WellFormed) {id : TaskId} {u : Task}
    (hid : s.tasks.get? id = none) (hu : s'.tasks.get? id = some u) :
    op = .createTask u ∧ u.id = id := by
  have hno : s'.tasks = s.tasks → op = .createTask u ∧ u.id = id := by
    intro he
    rw [he, hid] at hu
    cases hu
  by_cases hi : op.isInPlace = true
  · obtain ⟨latest, r⟩ := h.revises hi
    rw [r.tasks, hid] at hu
    cases hu
  · cases h with
    | createDataset h =>
      obtain rfl := createDataset_eq_ok h
      exact hno rfl
    | deleteDataset h =>
      obtain ⟨_, rfl⟩ := deleteDataset_eq_ok h
      exact hno rfl
    | createVersion _ _ _ _ _ h =>
      obtain ⟨_, _, _, rfl⟩ := createVersion_eq_ok h
      exact hno (s.before_createVersion _).2.2
    | createAsset _ h =>
      obtain ⟨_, _, _, _, rfl⟩ := createAsset_eq_ok h
      exact hno rfl
    | deleteAsset h =>
      obtain ⟨_, _, rfl⟩ := deleteAsset_eq_ok h
      rw [hw.get?_task_of_removeAsset, hid] at hu
      cases hu.1
    | @deleteVersion key v _ h =>
      -- the tasks that are left are those of assets that are left
      obtain ⟨hw', _, _, hassets, htasks⟩ := hw.deleteVersion_eq_ok h
      obtain ⟨b, hb⟩ := hw'.asset_of_task id u hu
      have hmem : u ∈ s'.tasksOf u.asset := by
        refine hw'.mem_tasksOf_iff.mpr ⟨?_, rfl⟩
        rw [hw'.task_id id u hu]
        exact hu
      rw [hassets, Option.filter_eq_some_iff] at hb
      rw [htasks _ b hb.1 (by simpa using hb.2)] at hmem
      have hu' := (hw.mem_tasksOf_iff.mp hmem).1
      rw [hw'.task_id id u hu, hid] at hu'
      cases hu'
    | @createTask t _ h =>
      obtain ⟨_, _, rfl⟩ := createTask_eq_ok h
      change (s.tasks.insert t.id t).get? id = some u at hu
      rw [Directory.get?_insert, hid] at hu
      split at hu
      · next he =>
        cases hu
        exact ⟨rfl, he⟩
      · cases hu
    | _ => exact absurd rfl hi

/-! ## Versions -/

/-- A version that is there is removed, or changes as the operation says. -/
theorem version_of_some (h : s.Performs op s') (hw : s.WellFormed) {k : VersionKey} {v : Version}
    (hv : s.versions.get? k = some v) :
    (s'.versions.get? k = none ∧ op = .deleteVersion k) ∨
      ∃ latest, s'.versions.get? k = some { op.onVersion k v with isLatest := latest } := by
  by_cases hi : op.isInPlace = true
  · right
    obtain ⟨latest, r⟩ := h.revises hi
    exact ⟨_, by rw [r.versions, hv, Option.map_some]⟩
  · cases h with
    | createDataset h =>
      right
      obtain rfl := createDataset_eq_ok h
      exact ⟨_, hv⟩
    | deleteDataset h =>
      right
      obtain ⟨_, rfl⟩ := deleteDataset_eq_ok h
      exact ⟨_, hv⟩
    | @createVersion u b _ _ _ _ _ _ h =>
      right
      obtain ⟨_, hnone, _, rfl⟩ := createVersion_eq_ok h
      have hne : u.key ≠ k := by
        rintro rfl
        rw [hnone] at hv
        cases hv
      show ∃ latest, (Directory.insert _ u.key u).get? k = _
      rw [Directory.get?_insert_of_ne hne]
      by_cases hl : u.isLatest = true
      · rw [if_pos hl, (demoteOthers_revises s u.key).versions, hv, Option.map_some]
        split
        · exact ⟨false, rfl⟩
        · exact ⟨v.isLatest, rfl⟩
      · rw [if_neg hl]
        exact ⟨v.isLatest, hv⟩
    | createAsset _ h =>
      right
      obtain ⟨_, _, _, _, rfl⟩ := createAsset_eq_ok h
      exact ⟨_, hv⟩
    | deleteAsset h =>
      right
      obtain ⟨_, _, rfl⟩ := deleteAsset_eq_ok h
      exact ⟨_, hv⟩
    | @deleteVersion key _ _ h =>
      obtain ⟨_, _, hvs, _, _⟩ := hw.deleteVersion_eq_ok h
      rw [hvs, Directory.get?_erase]
      by_cases hk : key = k
      · left
        rw [if_pos hk, hk]
        exact ⟨rfl, rfl⟩
      · right
        rw [if_neg hk]
        exact ⟨_, hv⟩
    | createTask h =>
      right
      obtain ⟨_, _, rfl⟩ := createTask_eq_ok h
      exact ⟨_, hv⟩
    | _ => exact absurd rfl hi

/-- A version that was not there before was filed together with its default asset. -/
theorem version_of_none (h : s.Performs op s') (hw : s.WellFormed) {k : VersionKey} {w : Version}
    (hk : s.versions.get? k = none) (hw' : s'.versions.get? k = some w) :
    ∃ a, op = .createVersion w a ∧ w.key = k ∧ a.key = k ∧ a.isDefault = true ∧ a.IsNew ∧
      w.status = .pending ∧ s'.assets.get? a.id = some a := by
  by_cases hi : op.isInPlace = true
  · obtain ⟨latest, r⟩ := h.revises hi
    rw [r.versions, hk] at hw'
    cases hw'
  · cases h with
    | createDataset h =>
      obtain rfl := createDataset_eq_ok h
      rw [hk] at hw'
      cases hw'
    | deleteDataset h =>
      obtain ⟨_, rfl⟩ := deleteDataset_eq_ok h
      rw [hk] at hw'
      cases hw'
    | @createVersion u a _ hkey hdefault hnew hpending _ h =>
      obtain ⟨_, _, _, rfl⟩ := createVersion_eq_ok h
      have hnone : (if u.isLatest then s.demoteOthers u.key else s).versions.get? k = none := by
        split
        · rw [(demoteOthers_revises s u.key).versions, hk]
          rfl
        · exact hk
      change (Directory.insert _ u.key u).get? k = some w at hw'
      rw [Directory.get?_insert, hnone] at hw'
      split at hw'
      · next he =>
        cases hw'
        exact ⟨a, rfl, he, hkey.trans he, hdefault, hnew, hpending,
          Directory.get?_insert_self _ _ _⟩
      · cases hw'
    | createAsset _ h =>
      obtain ⟨_, _, _, _, rfl⟩ := createAsset_eq_ok h
      change s.versions.get? k = some w at hw'
      rw [hk] at hw'
      cases hw'
    | deleteAsset h =>
      obtain ⟨_, _, rfl⟩ := deleteAsset_eq_ok h
      change s.versions.get? k = some w at hw'
      rw [hk] at hw'
      cases hw'
    | deleteVersion h =>
      obtain ⟨_, _, hvs, _, _⟩ := hw.deleteVersion_eq_ok h
      rw [hvs, Directory.get?_erase, hk] at hw'
      split at hw'
      · cases hw'
      · cases hw'
    | createTask h =>
      obtain ⟨_, _, rfl⟩ := createTask_eq_ok h
      change s.versions.get? k = some w at hw'
      rw [hk] at hw'
      cases hw'
    | _ => exact absurd rfl hi

end Performs

/-! ## Several operations -/

/-- The store after several operations. In between, recordings of tasks may be rejected. -/
inductive PerformsAll : Store → List Operation → Store → Prop where
  | nil (s : Store) : PerformsAll s [] s
  | cons {s s₁ s' : Store} {op : Operation} {ops : List Operation} (h : s.Performs op s₁)
    (hs : PerformsAll s₁ ops s') : PerformsAll s (op :: ops) s'
  | reject {s s' : Store} {ops : List Operation} (count : Nat)
    (hs : PerformsAll (s.rejectTaskWrites count) ops s') : PerformsAll s ops s'

theorem WellFormed.rejectTaskWrites (hw : s.WellFormed) (count : Nat) :
    (s.rejectTaskWrites count).WellFormed :=
  { hw with }

/-- Whether a version is the latest has no influence on its status and its log. -/
theorem foldl_onVersion_latest (ops : List Operation) (k : VersionKey) (v : Version)
    (latest : Bool) :
    ops.foldl (fun v (op : Operation) => op.onVersion k v) { v with isLatest := latest } =
      { ops.foldl (fun v (op : Operation) => op.onVersion k v) v with isLatest := latest } := by
  have hop : ∀ (op : Operation) (v : Version), op.onVersion k { v with isLatest := latest } =
      { op.onVersion k v with isLatest := latest } := by
    intro op v
    cases op with
    | appendVersionLog key e =>
      simp only [Operation.onVersion, only]
      split <;> rfl
    | commit a t =>
      simp only [Operation.onVersion, only]
      split
      · cases t.version <;> rfl
      · rfl
    | _ => rfl
  induction ops generalizing v with
  | nil => rfl
  | cons op ops ih =>
    rw [List.foldl_cons, List.foldl_cons, hop]
    exact ih (op.onVersion k v)

namespace PerformsAll

variable {ops ops' : List Operation}

theorem single (h : s.Performs op s') : s.PerformsAll [op] s' := .cons h (.nil s')

theorem append {s₁ : Store} (h : s.PerformsAll ops s₁) (h' : s₁.PerformsAll ops' s') :
    s.PerformsAll (ops ++ ops') s' := by
  induction h with
  | nil => exact h'
  | cons hop _ ih => exact .cons hop (ih h')
  | reject count _ ih => exact .reject count (ih h')

/-- An operation is performed on the store to which those before it lead. -/
theorem exists_of_append {op : Operation} (h : s.PerformsAll (ops ++ op :: ops') s') :
    ∃ s₁ s₂, s.PerformsAll ops s₁ ∧ s₁.Performs op s₂ ∧ s₂.PerformsAll ops' s' := by
  generalize hall : ops ++ op :: ops' = all at h
  induction h generalizing ops with
  | nil =>
    have hlen := congrArg List.length hall
    rw [List.length_append, List.length_cons, List.length_nil] at hlen
    omega
  | cons hop hs ih =>
    cases ops with
    | nil =>
      cases hall
      exact ⟨_, _, .nil _, hop, hs⟩
    | cons op' rest =>
      cases hall
      obtain ⟨s₁, s₂, h₁, h₂, h₃⟩ := ih rfl
      exact ⟨s₁, s₂, .cons hop h₁, h₂, h₃⟩
  | reject count _ ih =>
    obtain ⟨s₁, s₂, h₁, h₂, h₃⟩ := ih hall
    exact ⟨s₁, s₂, .reject count h₁, h₂, h₃⟩

theorem wellFormed (h : s.PerformsAll ops s') (hw : s.WellFormed) : s'.WellFormed := by
  induction h with
  | nil => exact hw
  | cons hop _ ih => exact ih (hop.wellFormed hw)
  | reject count _ ih => exact ih (hw.rejectTaskWrites count)

/-- An asset that is not there, and that no operation files, is not there afterwards. -/
theorem asset_eq_none (h : s.PerformsAll ops s') (hw : s.WellFormed) {x : AssetId}
    (hx : s.assets.get? x = none) (hf : ∀ op ∈ ops, ∀ b, op.files? = some b → b.id ≠ x) :
    s'.assets.get? x = none := by
  induction h with
  | nil => exact hx
  | @cons s s₁ _ op _ hop _ ih =>
    refine ih (hop.wellFormed hw) ?_ fun op hop' => hf op (List.mem_cons_of_mem _ hop')
    cases hb : s₁.assets.get? x with
    | none => rfl
    | some b =>
      obtain ⟨hfiles, hid, _⟩ := hop.asset_of_none hw hx hb
      exact absurd hid (hf op List.mem_cons_self b hfiles)
  | reject count _ ih => exact ih (hw.rejectTaskWrites count) hx hf

/-- An asset that is there before and after some operations went through all of them, and so did
its tasks. -/
theorem asset_of_some (h : s.PerformsAll ops s') (hw : s.WellFormed) {x : AssetId} {a b : Asset}
    (ha : s.assets.get? x = some a) (hb : s'.assets.get? x = some b)
    (hf : ∀ op ∈ ops, ∀ b, op.files? = some b → b.id ≠ x) :
    b = ops.foldl (fun a op => op.onAsset x a) a ∧ a.Becomes b ∧
      s'.tasksOf x = ops.foldl (fun ts op => op.onTasks x ts) (s.tasksOf x) := by
  induction h generalizing a with
  | nil =>
    rw [ha] at hb
    cases hb
    exact ⟨rfl, .refl _, rfl⟩
  | @cons s s₁ _ op ops hop hs ih =>
    have hf' : ∀ op ∈ ops, ∀ b, op.files? = some b → b.id ≠ x :=
      fun op hop' => hf op (List.mem_cons_of_mem _ hop')
    rcases hop.asset_of_some hw ha with ⟨hnone, _⟩ | ⟨hsome, htasks⟩
    · -- once removed, it would have to be filed again
      rw [hs.asset_eq_none (hop.wellFormed hw) hnone hf'] at hb
      cases hb
    · obtain ⟨heq, hbec, ht⟩ := ih (hop.wellFormed hw) hsome hb hf'
      rw [htasks] at ht
      exact ⟨heq, (hop.becomes_onAsset ha).trans hbec, ht⟩
  | reject count _ ih => exact ih (hw.rejectTaskWrites count) ha hb hf

/-- An asset that was not there before was filed by one of the operations. -/
theorem exists_files_of_none (h : s.PerformsAll ops s') (hw : s.WellFormed) {x : AssetId}
    {b : Asset} (hx : s.assets.get? x = none) (hb : s'.assets.get? x = some b) :
    ∃ op ∈ ops, ∃ a, op.files? = some a ∧ a.id = x := by
  by_contra hno
  have hnone : s'.assets.get? x = none := by
    refine h.asset_eq_none hw hx fun op hop a ha hid => ?_
    exact hno ⟨op, hop, a, ha, hid⟩
  rw [hnone] at hb
  cases hb

theorem of_nil (h : s.PerformsAll [] s') : s'.assets = s.assets ∧ s'.versions = s.versions ∧
    ∀ x, s'.tasksOf x = s.tasksOf x := by
  generalize hops : ([] : List Operation) = ops at h
  induction h with
  | nil => exact ⟨rfl, rfl, fun _ => rfl⟩
  | cons => cases hops
  | reject _ _ ih => exact ih hops

/-- Only requests remove assets. -/
theorem asset_stays (h : s.PerformsAll ops s') (hw : s.WellFormed)
    (hreq : ∀ op ∈ ops, op.isRequest = false) {x : AssetId} {a : Asset}
    (ha : s.assets.get? x = some a) : ∃ b, s'.assets.get? x = some b := by
  induction h generalizing a with
  | nil => exact ⟨a, ha⟩
  | @cons s s₁ _ op ops hop _ ih =>
    have hop' := hreq op List.mem_cons_self
    -- the operations that remove an asset are requests
    rcases hop.asset_of_some hw ha with ⟨_, ⟨rfl, _⟩ | rfl⟩ | ⟨hsome, _⟩
    · cases hop'
    · cases hop'
    · exact ih (hop.wellFormed hw) (fun op h => hreq op (List.mem_cons_of_mem _ h)) hsome
  | reject count _ ih => exact ih (hw.rejectTaskWrites count) hreq ha

/-- A version that is there before some operations, none of which is a request, went through all of
them. -/
theorem version_of_some (h : s.PerformsAll ops s') (hw : s.WellFormed)
    (hreq : ∀ op ∈ ops, op.isRequest = false) {k : VersionKey} {v : Version}
    (hv : s.versions.get? k = some v) : ∃ w, s'.versions.get? k = some w ∧
      w.status = (ops.foldl (fun v (op : Operation) => op.onVersion k v) v).status ∧
      w.log = (ops.foldl (fun v (op : Operation) => op.onVersion k v) v).log := by
  induction h generalizing v with
  | nil => exact ⟨v, hv, rfl, rfl⟩
  | @cons s s₁ _ op ops hop _ ih =>
    rcases hop.version_of_some hw hv with ⟨_, rfl⟩ | ⟨latest, hsome⟩
    · have hop' := hreq _ List.mem_cons_self
      cases hop'
    · obtain ⟨w, hw', hstatus, hlog⟩ :=
        ih (hop.wellFormed hw) (fun op h => hreq op (List.mem_cons_of_mem _ h)) hsome
      rw [foldl_onVersion_latest] at hstatus hlog
      exact ⟨w, hw', hstatus, hlog⟩
  | reject count _ ih => exact ih (hw.rejectTaskWrites count) hreq hv

/-- The status of a version that is there before and after one operation. -/
theorem version_of_single (h : s.PerformsAll [op] s') (hw : s.WellFormed) {k : VersionKey}
    {v w : Version} (hv : s.versions.get? k = some v) (hw' : s'.versions.get? k = some w) :
    w.status = (op.onVersion k v).status := by
  generalize hops : [op] = ops at h
  induction h with
  | nil => cases hops
  | cons hop hs =>
    cases hops
    obtain ⟨_, hversions, _⟩ := hs.of_nil
    rw [hversions] at hw'
    rcases hop.version_of_some hw hv with ⟨hnone, _⟩ | ⟨latest, hsome⟩
    · rw [hnone] at hw'
      cases hw'
    · rw [hsome] at hw'
      cases hw'
      rfl
  | reject count _ ih => exact ih (hw.rejectTaskWrites count) hv hw' hops

/-- An asset that was not there before one operation is the one that it filed. -/
theorem asset_of_single (h : s.PerformsAll [op] s') (hw : s.WellFormed) {x : AssetId} {b : Asset}
    (hx : s.assets.get? x = none) (hb : s'.assets.get? x = some b) :
    op.files? = some b ∧ b.IsNew ∧ s'.tasksOf x = [] := by
  generalize hops : [op] = ops at h
  induction h with
  | nil => cases hops
  | cons hop hs =>
    cases hops
    obtain ⟨hassets, _, htasks⟩ := hs.of_nil
    rw [hassets] at hb
    obtain ⟨hf, _, hnew, ht⟩ := hop.asset_of_none hw hx hb
    exact ⟨hf, hnew, by rw [htasks, ht]⟩
  | reject count _ ih => exact ih (hw.rejectTaskWrites count) hx hb hops

/-- An asset that one operation files is there. -/
theorem asset_of_files (h : s.PerformsAll [op] s') {a : Asset} (hf : op.files? = some a) :
    s'.assets.get? a.id = some a := by
  generalize hops : [op] = ops at h
  induction h with
  | nil => cases hops
  | cons hop hs =>
    cases hops
    rw [hs.of_nil.1]
    exact hop.asset_of_files hf
  | reject _ _ ih => exact ih hops

/-- A task that one operation records is among the tasks of its asset. -/
theorem mem_tasksOf_of_createTask {t : Task} (h : s.PerformsAll [.createTask t] s')
    (hw : s.WellFormed) : t ∈ s'.tasksOf t.asset := by
  generalize hops : [Operation.createTask t] = ops at h
  induction h with
  | nil => cases hops
  | cons hop hs =>
    cases hops
    rw [hs.of_nil.2.2]
    cases hop with
    | createTask h =>
      rw [hw.tasksOf_createTask h, if_pos rfl]
      exact List.mem_concat_self
  | reject count _ ih => exact ih (hw.rejectTaskWrites count) hops

/-- A task that was not there before was recorded by one of the operations. -/
theorem exists_records_of_none (h : s.PerformsAll ops s') (hw : s.WellFormed) {id : TaskId}
    {u : Task} (hid : s.tasks.get? id = none) (hu : s'.tasks.get? id = some u) :
    ∃ op ∈ ops, ∃ t, op.records? = some t ∧ t.id = id := by
  induction h with
  | nil =>
    rw [hid] at hu
    cases hu
  | @cons s s₁ _ op ops hop _ ih =>
    cases ht : s₁.tasks.get? id with
    | some t =>
      obtain ⟨rfl, hti⟩ := hop.task_of_none hw hid ht
      exact ⟨_, List.mem_cons_self, t, rfl, hti⟩
    | none =>
      obtain ⟨op', hop', hrec⟩ := ih (hop.wellFormed hw) ht hu
      exact ⟨op', List.mem_cons_of_mem op hop', hrec⟩
  | reject count _ ih => exact ih (hw.rejectTaskWrites count) hid hu

end PerformsAll

end Store

end GeoAssets
