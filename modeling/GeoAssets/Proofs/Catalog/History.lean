import GeoAssets.Proofs.Catalog.Operation

/-!
# The logs of records

Datasets, versions, assets and tasks keep logs (`Store.log?`). No operation on the store changes or
removes an entry, or puts one before another: a log only grows at its end, unless its record is
removed (`Store.Performs.log_cases`). Few operations remove records, and they say which
(`Store.Operation.Removes`).
-/

namespace GeoAssets

/-- What a record of the catalog is found by. -/
inductive RecordName where
  | dataset (name : String)
  | version (key : VersionKey)
  | asset (id : AssetId)
  | task (id : TaskId)
  deriving DecidableEq, Repr

namespace Store

variable {s s' : Store} {op : Operation}

/-- The log of a record, if the record is there. -/
def log? (s : Store) : RecordName → Option ChangeLog
  | .dataset name => (s.datasets.get? name).map (·.log)
  | .version key => (s.versions.get? key).map (·.log)
  | .asset id => (s.assets.get? id).map (·.log)
  | .task id => (s.tasks.get? id).map (·.log)

/-- An operation removes a record: a dataset, a version with its assets and their tasks, or an asset
with its tasks. -/
def Operation.Removes (s : Store) : Operation → RecordName → Prop
  | .deleteDataset name, .dataset name' => name' = name
  | .deleteVersion key, .version key' => key' = key
  | .deleteVersion key, .asset id => ∃ a, s.assets.get? id = some a ∧ a.key = key
  | .deleteVersion key, .task id =>
    ∃ t a, s.tasks.get? id = some t ∧ s.assets.get? t.asset = some a ∧ a.key = key
  | .deleteAsset id, .asset id' => id' = id
  | .deleteAsset id, .task id' => ∃ t, s.tasks.get? id' = some t ∧ t.asset = id
  | _, _ => False

namespace Performs

/-! ## Datasets -/

/-- A dataset that is there is removed, or stays as it is. -/
theorem dataset_of_some (h : s.Performs op s') (hw : s.WellFormed) {name : String} {d : Dataset}
    (hd : s.datasets.get? name = some d) :
    (s'.datasets.get? name = none ∧ op = .deleteDataset name) ∨
      s'.datasets.get? name = some d := by
  by_cases hi : op.isInPlace = true
  · right
    obtain ⟨_, r⟩ := h.revises hi
    rw [r.datasets, hd]
  · cases h with
    | @createDataset e _ h =>
      right
      simp only [Store.createDataset, bind_eq_ok_iff, require_eq_ok_iff, Bool.not_eq_true',
        Directory.contains_eq_false_iff] at h
      obtain ⟨_, hnone, h⟩ := h
      cases h
      have hne : e.name ≠ name := by
        rintro rfl
        rw [hnone] at hd
        cases hd
      show (Directory.insert _ e.name e).get? name = some d
      rw [Directory.get?_insert_of_ne hne]
      exact hd
    | @deleteDataset name' _ _ h =>
      obtain ⟨_, rfl⟩ := deleteDataset_eq_ok h
      by_cases hn : name' = name
      · left
        subst hn
        exact ⟨Directory.get?_erase_self _ _, rfl⟩
      · right
        show (Directory.erase _ name').get? name = some d
        rw [Directory.get?_erase_of_ne hn]
        exact hd
    | @createVersion v _ _ _ _ _ _ _ h =>
      right
      obtain ⟨_, _, _, rfl⟩ := createVersion_eq_ok h
      show (if v.isLatest then s.demoteOthers v.key else s).datasets.get? name = some d
      split
      · exact hd
      · exact hd
    | createAsset _ h =>
      right
      obtain ⟨_, _, _, _, rfl⟩ := createAsset_eq_ok h
      exact hd
    | deleteAsset h =>
      right
      obtain ⟨_, _, rfl⟩ := deleteAsset_eq_ok h
      exact hd
    | @deleteVersion key _ _ h =>
      right
      obtain ⟨_, _, rfl⟩ := deleteVersion_eq h
      obtain ⟨hstored, hnodup⟩ := hw.owned_stored key
      exact (congrArg (Directory.get? · name) (hw.foldl_removeAsset hstored hnodup).2.1).trans hd
    | createTask h =>
      right
      obtain ⟨_, _, rfl⟩ := createTask_eq_ok h
      exact hd
    | _ => exact absurd rfl hi

/-! ## Tasks -/

/-- A task that is there is removed with its asset, or changes as the operation says. -/
theorem task_of_some (h : s.Performs op s') (hw : s.WellFormed) {id : TaskId} {t : Task}
    (ht : s.tasks.get? id = some t) :
    (s'.tasks.get? id = none ∧ op.Removes s (.task id)) ∨
      s'.tasks.get? id = some (op.onTask id t) := by
  by_cases hi : op.isInPlace = true
  · right
    obtain ⟨_, r⟩ := h.revises hi
    rw [r.tasks, ht, Option.map_some]
  · cases h with
    | createDataset h =>
      right
      obtain rfl := createDataset_eq_ok h
      exact ht
    | deleteDataset h =>
      right
      obtain ⟨_, rfl⟩ := deleteDataset_eq_ok h
      exact ht
    | @createVersion v _ _ _ _ _ _ _ h =>
      right
      obtain ⟨_, _, _, rfl⟩ := createVersion_eq_ok h
      exact (congrArg (Directory.get? · id) (s.before_createVersion v).2.2).trans ht
    | createAsset _ h =>
      right
      obtain ⟨_, _, _, _, rfl⟩ := createAsset_eq_ok h
      exact ht
    | @deleteAsset x a _ h =>
      obtain ⟨ha, _, rfl⟩ := deleteAsset_eq_ok h
      have hid := hw.asset_id x a ha
      by_cases hx : t.asset = a.id
      · left
        refine ⟨Option.eq_none_iff_forall_ne_some.mpr fun u hu => ?_, t, ht, hx.trans hid⟩
        obtain ⟨hu, hne⟩ := (hw.get?_task_of_removeAsset a).mp hu
        rw [ht] at hu
        cases hu
        exact hne hx
      · right
        exact (hw.get?_task_of_removeAsset a).mpr ⟨ht, hx⟩
    | @deleteVersion key v _ h =>
      obtain ⟨hw', _, _, hassets, htasks⟩ := hw.deleteVersion_eq_ok h
      obtain ⟨a, ha⟩ := hw.asset_of_task id t ht
      have hid := hw.task_id id t ht
      by_cases hk : a.key = key
      · left
        refine ⟨Option.eq_none_iff_forall_ne_some.mpr fun u hu => ?_, t, a, ht, ha, hk⟩
        -- a task that is left is one of an asset that is left
        obtain ⟨b, hb⟩ := hw'.asset_of_task id u hu
        have hmem : u ∈ s'.tasksOf u.asset :=
          hw'.mem_tasksOf_iff.mpr ⟨by rw [hw'.task_id id u hu]; exact hu, rfl⟩
        rw [hassets, Option.filter_eq_some_iff] at hb
        rw [htasks _ b hb.1 (by simpa using hb.2), hw.mem_tasksOf_iff, hw'.task_id id u hu,
          ht] at hmem
        cases hmem.1
        rw [ha] at hb
        cases hb.1
        simp [hk] at hb
      · right
        have hmem : t ∈ s.tasksOf t.asset := hw.mem_tasksOf_iff.mpr ⟨by rw [hid]; exact ht, rfl⟩
        rw [← htasks t.asset a ha hk, hw'.mem_tasksOf_iff, hid] at hmem
        exact hmem.1
    | @createTask u _ h =>
      right
      obtain ⟨_, hnone, rfl⟩ := createTask_eq_ok h
      have hne : u.id ≠ id := by
        rintro rfl
        rw [hnone] at ht
        cases ht
      show (Directory.insert _ u.id u).get? id = some t
      rw [Directory.get?_insert_of_ne hne]
      exact ht
    | _ => exact absurd rfl hi

/-! ## Logs -/

/-- A record is removed, or its log grows. -/
theorem log_cases (h : s.Performs op s') (hw : s.WellFormed) {r : RecordName} {log : ChangeLog}
    (hlog : s.log? r = some log) :
    (s'.log? r = none ∧ op.Removes s r) ∨ ∃ log', s'.log? r = some log' ∧ log <+: log' := by
  cases r with
  | dataset name =>
    obtain ⟨d, hd, rfl⟩ := Option.map_eq_some_iff.mp hlog
    rcases h.dataset_of_some hw hd with ⟨hnone, rfl⟩ | hsome
    · exact Or.inl ⟨Option.map_eq_none_iff.mpr hnone, rfl⟩
    · exact Or.inr ⟨d.log, Option.map_eq_some_iff.mpr ⟨d, hsome, rfl⟩, List.prefix_refl _⟩
  | version key =>
    obtain ⟨v, hv, rfl⟩ := Option.map_eq_some_iff.mp hlog
    rcases h.version_of_some hw hv with ⟨hnone, rfl⟩ | ⟨latest, hsome⟩
    · exact Or.inl ⟨Option.map_eq_none_iff.mpr hnone, rfl⟩
    · exact Or.inr ⟨_, Option.map_eq_some_iff.mpr ⟨_, hsome, rfl⟩,
        (becomes_onVersion op key v latest).log⟩
  | asset id =>
    obtain ⟨a, ha, rfl⟩ := Option.map_eq_some_iff.mp hlog
    rcases h.asset_of_some hw ha with ⟨hnone, hop⟩ | ⟨hsome, _⟩
    · refine Or.inl ⟨Option.map_eq_none_iff.mpr hnone, ?_⟩
      rcases hop with ⟨rfl, _⟩ | rfl
      · rfl
      · exact ⟨a, ha, rfl⟩
    · exact Or.inr ⟨_, Option.map_eq_some_iff.mpr ⟨_, hsome, rfl⟩, (h.becomes_onAsset ha).log⟩
  | task id =>
    obtain ⟨t, ht, rfl⟩ := Option.map_eq_some_iff.mp hlog
    rcases h.task_of_some hw ht with ⟨hnone, hop⟩ | hsome
    · exact Or.inl ⟨Option.map_eq_none_iff.mpr hnone, hop⟩
    · exact Or.inr ⟨_, Option.map_eq_some_iff.mpr ⟨_, hsome, rfl⟩, (becomes_onTask op id t).log⟩

/-- Tasks of an asset that is gone are gone. -/
theorem task_eq_none (h : s.Performs op s') (hw : s.WellFormed) {id : TaskId} {t : Task}
    (ht : s.tasks.get? id = some t) (hgone : s'.assets.get? t.asset = none) :
    s'.tasks.get? id = none := by
  rcases h.task_of_some hw ht with ⟨hnone, _⟩ | hsome
  · exact hnone
  · obtain ⟨b, hb⟩ := (h.wellFormed hw).asset_of_task id _ hsome
    rw [(becomes_onTask op id t).asset, hgone] at hb
    cases hb

/-- A record that an operation removes is gone afterwards. -/
theorem log?_eq_none (h : s.Performs op s') (hw : s.WellFormed) {r : RecordName}
    (hr : op.Removes s r) : s'.log? r = none := by
  cases h with
  | deleteDataset h =>
    cases r with
    | dataset name =>
      obtain ⟨_, rfl⟩ := deleteDataset_eq_ok h
      obtain rfl := hr
      exact Option.map_eq_none_iff.mpr (Directory.get?_erase_self _ _)
    | _ => exact absurd hr id
  | @deleteVersion key _ _ h =>
    obtain ⟨_, _, hversions, hassets, _⟩ := hw.deleteVersion_eq_ok h
    have hgone : ∀ {x a}, s.assets.get? x = some a → a.key = key → s'.assets.get? x = none := by
      intro x a ha hk
      rw [hassets, ha, Option.filter_some_neg (by simp [hk])]
    cases r with
    | version key' =>
      obtain rfl := hr
      refine Option.map_eq_none_iff.mpr ?_
      rw [hversions, Directory.get?_erase_self]
    | asset x =>
      obtain ⟨a, ha, hk⟩ := hr
      exact Option.map_eq_none_iff.mpr (hgone ha hk)
    | task id =>
      obtain ⟨t, a, ht, ha, hk⟩ := hr
      exact Option.map_eq_none_iff.mpr
        ((Performs.deleteVersion h).task_eq_none hw ht (hgone ha hk))
    | dataset => exact absurd hr id
  | @deleteAsset x a _ h =>
    obtain ⟨ha, _, hs⟩ := deleteAsset_eq_ok h
    have hgone : s'.assets.get? x = none := by
      rw [hs, ← hw.asset_id x a ha]
      exact Directory.get?_erase_self _ _
    cases r with
    | asset x' =>
      obtain rfl := hr
      exact Option.map_eq_none_iff.mpr hgone
    | task id =>
      obtain ⟨t, ht, rfl⟩ := hr
      exact Option.map_eq_none_iff.mpr ((Performs.deleteAsset h).task_eq_none hw ht hgone)
    | _ => exact absurd hr id
  | _ => exact absurd hr id

end Performs

/-! ## Several operations -/

/-- Only requests remove records. -/
theorem Operation.not_removes_of_isRequest {op : Operation} (h : op.isRequest = false)
    (r : RecordName) : ¬ op.Removes s r := by
  cases op <;> first | exact id | cases h

theorem log?_rejectTaskWrites (s : Store) (count : Nat) (r : RecordName) :
    (s.rejectTaskWrites count).log? r = s.log? r := by
  cases r <;> rfl

/-- The log of a record that no operation removes grows. -/
theorem PerformsAll.log_grows {ops : List Operation} (h : s.PerformsAll ops s')
    (hw : s.WellFormed) {r : RecordName} (hno : ∀ op ∈ ops, ∀ s, ¬ op.Removes s r)
    {log : ChangeLog} (hlog : s.log? r = some log) :
    ∃ log', s'.log? r = some log' ∧ log <+: log' := by
  induction h generalizing log with
  | nil => exact ⟨log, hlog, List.prefix_refl _⟩
  | cons hop _ ih =>
    rcases hop.log_cases hw hlog with ⟨_, hr⟩ | ⟨log₁, hlog₁, hgrows⟩
    · exact absurd hr (hno _ List.mem_cons_self _)
    · obtain ⟨log', hlog', hgrows'⟩ :=
        ih (hop.wellFormed hw) (fun op hop => hno op (List.mem_cons_of_mem _ hop)) hlog₁
      exact ⟨log', hlog', hgrows.trans hgrows'⟩
  | reject count _ ih =>
    exact ih (hw.rejectTaskWrites count) hno (by rw [log?_rejectTaskWrites]; exact hlog)

end Store

end GeoAssets
