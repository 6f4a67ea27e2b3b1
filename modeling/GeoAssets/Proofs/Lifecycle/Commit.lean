import GeoAssets.Proofs.Lifecycle.World

/-!
# Commits

An asset is settled by one commit (`Store.Commits`). A report may be recorded before it, and
something may be noted in the log of the asset after it (`Store.Operation.settling`); no other
operation changes a status.
-/

namespace GeoAssets

/-- The operations that settle an asset: a report may be recorded before, and something may be noted
in the log of the asset afterwards. -/
def Store.Operation.settling (before : List Operation) (a : Asset) (t : Transition)
    (notes : List LogEntry) : List Operation :=
  before ++ .commit a t :: notes.map (.appendAssetLog a.id)

/-! ## What statuses become -/

namespace Store.Operation

/-- Without a commit only the number of tasks and the log of an asset may change. -/
theorem exists_onAsset_eq {op : Operation} (h : op.settlements = []) (x : AssetId) (a : Asset) :
    ∃ n log, op.onAsset x a = { a with expectedTasks := n, log := log } := by
  cases op with
  | commit => cases h
  | setExpectedTasks | appendAssetLog =>
    rw [onAsset]
    exact only_holds (p := fun b : Asset => ∃ n log, b = { a with expectedTasks := n, log := log })
      (fun _ => ⟨_, _, rfl⟩) ⟨_, _, rfl⟩
  | _ => exact ⟨_, _, rfl⟩

theorem status_onVersion {op : Operation} (h : op.settlements = []) (k : VersionKey)
    (v : Version) : (op.onVersion k v).status = v.status := by
  cases op with
  | commit => cases h
  | appendVersionLog key e =>
    rw [onVersion]
    exact only_holds (p := fun w : Version => w.status = v.status) (fun _ => rfl) rfl
  | _ => rfl

theorem isRequest_of_files? {op : Operation} {a : Asset} (h : op.files? = some a) :
    op.isRequest = true := by
  cases op <;> first | rfl | cases h

theorem settlements_of_isRequest {op : Operation} (h : op.isRequest = true) :
    op.settlements = [] := by
  cases op <;> first | rfl | cases h

theorem exists_foldl_onAsset_eq {ops : List Operation} (h : ∀ op ∈ ops, op.settlements = [])
    (x : AssetId) (a : Asset) : ∃ n log,
      ops.foldl (fun a (op : Operation) => op.onAsset x a) a =
        { a with expectedTasks := n, log := log } := by
  induction ops generalizing a with
  | nil => exact ⟨_, _, rfl⟩
  | cons op ops ih =>
    obtain ⟨n, log, hop⟩ := exists_onAsset_eq (h op List.mem_cons_self) x a
    rw [List.foldl_cons, hop]
    exact ih (fun op hop => h op (List.mem_cons_of_mem _ hop)) { a with expectedTasks := n, log }

theorem status_foldl_onAsset {ops : List Operation} (h : ∀ op ∈ ops, op.settlements = [])
    (x : AssetId) (a : Asset) :
    (ops.foldl (fun a (op : Operation) => op.onAsset x a) a).status = a.status := by
  obtain ⟨n, log, hsame⟩ := exists_foldl_onAsset_eq h x a
  rw [hsame]

theorem status_foldl_onVersion {ops : List Operation} (h : ∀ op ∈ ops, op.settlements = [])
    (k : VersionKey) (v : Version) :
    (ops.foldl (fun v (op : Operation) => op.onVersion k v) v).status = v.status := by
  induction ops generalizing v with
  | nil => rfl
  | cons op ops ih =>
    rw [List.foldl_cons, ih fun op hop => h op (List.mem_cons_of_mem _ hop)]
    exact status_onVersion (h op List.mem_cons_self) k v

/-- Notes in the log of an asset are all that is added to the asset. -/
theorem foldl_notes (notes : List LogEntry) (id x : AssetId) (a : Asset) :
    (notes.map (Operation.appendAssetLog id)).foldl (fun a (op : Operation) => op.onAsset x a) a =
      only id (fun a => { a with log := a.log ++ notes }) x a := by
  induction notes generalizing a with
  | nil =>
    rw [List.map_nil, List.foldl_nil]
    exact (only_holds (p := fun b : Asset => b = a) (fun _ => by rw [List.append_nil]) rfl).symm
  | cons e notes ih =>
    rw [List.map_cons, List.foldl_cons, ih, onAsset]
    by_cases hx : x = id
    · subst hx
      rw [only_self, only_self, only_self, List.append_assoc]
      rfl
    · rw [only_of_ne hx, only_of_ne hx, only_of_ne hx]

theorem foldl_notes_onTasks (notes : List LogEntry) (id x : AssetId) (ts : List Task) :
    (notes.map (Operation.appendAssetLog id)).foldl (fun ts (op : Operation) => op.onTasks x ts)
      ts = ts := by
  induction notes generalizing ts with
  | nil => rfl
  | cons e notes ih =>
    rw [List.map_cons, List.foldl_cons, ih]
    exact List.map_id' ts

theorem foldl_notes_onVersion (notes : List LogEntry) (id : AssetId) (k : VersionKey)
    (v : Version) : (notes.map (Operation.appendAssetLog id)).foldl
      (fun v (op : Operation) => op.onVersion k v) v = v := by
  induction notes with
  | nil => rfl
  | cons e notes ih => exact ih

section settling

variable {before : List Operation} {a : Asset} {t : Transition} {notes : List LogEntry}

theorem isRequest_of_settling (hbefore : before = [] ∨ ∃ id e, before = [.appendTaskLog id e]) :
    ∀ op ∈ settling before a t notes, op.isRequest = false := by
  intro op hop
  rcases List.mem_append.mp hop with hop | hop
  · rcases hbefore with rfl | ⟨id, e, rfl⟩
    · cases hop
    · rw [List.mem_singleton.mp hop]
      rfl
  · rcases List.mem_cons.mp hop with rfl | hop
    · rfl
    · obtain ⟨e, _, rfl⟩ := List.mem_map.mp hop
      rfl

theorem foldl_settling (hbefore : before = [] ∨ ∃ id e, before = [.appendTaskLog id e])
    (ht : t.Settles a) (x : AssetId) (c : Asset) :
    (settling before a t notes).foldl (fun c (op : Operation) => op.onAsset x c) c =
      only a.id (fun c => { t.applyAsset c with log := c.log ++ [t.entry] ++ notes }) x c := by
  have hbefore' : before.foldl (fun c (op : Operation) => op.onAsset x c) c = c := by
    rcases hbefore with rfl | ⟨_, _, rfl⟩ <;> rfl
  rw [settling, List.foldl_append, hbefore', List.foldl_cons, foldl_notes, onAsset, ht.asset]
  by_cases hx : x = a.id
  · rw [hx, only_self, only_self, only_self]
    rfl
  · rw [only_of_ne hx, only_of_ne hx, only_of_ne hx]

/-- Settling an asset leaves the tasks alone that were reported before. -/
theorem foldl_settling_onTasks (x : AssetId) (ts : List Task) :
    (settling before a t notes).foldl (fun ts (op : Operation) => op.onTasks x ts) ts =
      before.foldl (fun ts (op : Operation) => op.onTasks x ts) ts := by
  rw [settling, List.foldl_append, List.foldl_cons, foldl_notes_onTasks]
  exact List.map_id' _

theorem foldl_settling_onVersion
    (hbefore : before = [] ∨ ∃ id e, before = [.appendTaskLog id e]) (k : VersionKey)
    (v : Version) :
    (settling before a t notes).foldl (fun v (op : Operation) => op.onVersion k v) v =
      only a.key (fun v => t.version.elim v (Transition.applyVersion · v)) k v := by
  have hbefore' : before.foldl (fun v (op : Operation) => op.onVersion k v) v = v := by
    rcases hbefore with rfl | ⟨_, _, rfl⟩ <;> rfl
  rw [settling, List.foldl_append, hbefore', List.foldl_cons, foldl_notes_onVersion]
  rfl

theorem settlements_of_settling
    (hbefore : before = [] ∨ ∃ id e, before = [.appendTaskLog id e]) (ht : t.Settles a) :
    (settling before a t notes).flatMap (·.settlements) = .assetSettled a.type t.status ::
      if a.isDefault then [.versionSettled t.status] else [] := by
  have hbefore' : before.flatMap (·.settlements) = [] := by
    rcases hbefore with rfl | ⟨_, _, rfl⟩ <;> rfl
  have hnotes : (notes.map (appendAssetLog a.id)).flatMap (·.settlements) = [] := by
    refine List.flatMap_eq_nil_iff.mpr fun op hop => ?_
    obtain ⟨e, _, rfl⟩ := List.mem_map.mp hop
    rfl
  rw [settling, List.flatMap_append, hbefore', List.flatMap_cons, hnotes, List.append_nil,
    settlements, ht.version]
  by_cases hdefault : a.isDefault = true
  · rw [if_pos hdefault, if_pos hdefault]
    rfl
  · rw [if_neg hdefault, if_neg hdefault]
    rfl

end settling

end Store.Operation

/-! ## Commits -/

namespace Store

/-- One commit applies a transition to an asset, and to its version if the asset is the default
one. -/
structure Commits (s : Store) (a : Asset) (t : Transition) (s' : Store) : Prop where
  applied : ∃ v?, s.commit t = (.applied (t.applyAsset a) v?, s')
  asset : s'.assets.get? a.id = some (t.applyAsset a)
  others : ∀ x, x ≠ a.id → s'.assets.get? x = s.assets.get? x
  versions : ∀ k, s'.versions.get? k = (s.versions.get? k).map fun v =>
    if a.isDefault = true ∧ a.key = k then
      { v with status := t.status, log := v.log ++ [t.entry] }
    else v

variable {s s' : Store}

theorem Performs.commits {a : Asset} {t : Transition} (h : s.Performs (.commit a t) s') :
    s.Commits a t s' := by
  cases h with
  | commit ha hpending ht h =>
    obtain ⟨_, hc, r⟩ := commit_of_pending ha (Status.isTerminal_eq_false_iff.mpr hpending)
    rw [hc] at h
    cases h
    refine ⟨⟨_, hc⟩, ?_, ?_, ?_⟩
    · rw [r.assets, ← ht.asset, ha, Option.map_some, only_self]
    · intro x hx
      rw [r.assets]
      cases s.assets.get? x with
      | none => rfl
      | some b => rw [Option.map_some, only_of_ne (ht.asset ▸ hx)]
    · intro k
      rw [r.versions]
      refine congrArg (Option.map · _) (funext fun v => ?_)
      by_cases hk : k = a.key
      · rw [hk, only_self, ht.version]
        by_cases hdefault : a.isDefault = true
        · rw [if_pos hdefault, if_pos ⟨hdefault, rfl⟩]
          rfl
        · rw [if_neg hdefault, if_neg fun h => hdefault h.1]
          rfl
      · rw [only_of_ne hk, if_neg fun h => hk h.2.symm]

/-- A report in the log of a task changes neither assets nor versions. -/
theorem PerformsAll.catalog_eq {ops : List Operation} (h : s.PerformsAll ops s')
    (hops : ops = [] ∨ ∃ id e, ops = [.appendTaskLog id e]) :
    s'.assets = s.assets ∧ s'.versions = s.versions := by
  rcases hops with rfl | ⟨id, e, rfl⟩
  · exact ⟨h.of_nil.1, h.of_nil.2.1⟩
  · obtain ⟨s₁, s₂, h₁, hop, h₂⟩ := @exists_of_append _ _ [] _ _ h
    cases hop with
    | appendTaskLog happend =>
      obtain ⟨_, _, _, rfl⟩ := appendTaskLog_eq_ok happend
      exact ⟨h₂.of_nil.1.trans h₁.of_nil.1, h₂.of_nil.2.1.trans h₁.of_nil.2.1⟩

/-- Where nothing is requested, an asset becomes what the operations make of it. -/
theorem PerformsAll.asset_of_noRequest {ops : List Operation} (h : s.PerformsAll ops s')
    (hw : s.WellFormed) (hops : ∀ op ∈ ops, op.isRequest = false) {x : AssetId} {a b : Asset}
    (ha : s.assets.get? x = some a) (hb : s'.assets.get? x = some b) :
    b = ops.foldl (fun a (op : Operation) => op.onAsset x a) a := by
  refine (h.asset_of_some hw ha hb fun op hop c hc => ?_).1
  have hrequest := Operation.isRequest_of_files? hc
  rw [hops op hop] at hrequest
  cases hrequest

end Store

end GeoAssets
