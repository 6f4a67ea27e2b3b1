import GeoAssets.Proofs.Catalog.Revision
import Mathlib.Data.List.Nodup

/-!
# Well-formed stores

In a well-formed store every record is filed under its own key, everything that a record belongs to
is there, and the two indices say what the records say (`Store.WellFormed`). Every operation on the
store keeps it well-formed, provided that a new asset comes with a new id.
-/

namespace GeoAssets.Store

/-- The records of a store agree with each other and with the indices. -/
structure WellFormed (s : Store) : Prop where
  distinct : s.assets.Distinct
  dataset_name : ∀ n d, s.datasets.get? n = some d → d.name = n
  version_key : ∀ k v, s.versions.get? k = some v → v.key = k
  asset_id : ∀ id a, s.assets.get? id = some a → a.id = id
  task_id : ∀ id t, s.tasks.get? id = some t → t.id = id
  dataset_of_version : ∀ k v, s.versions.get? k = some v → ∃ d, s.datasets.get? k.dataset = some d
  version_of_asset : ∀ id a, s.assets.get? id = some a → ∃ v, s.versions.get? a.key = some v
  asset_of_task : ∀ id t, s.tasks.get? id = some t → ∃ a, s.assets.get? t.asset = some a
  /-- The places are those of the assets. -/
  place_iff : ∀ u id, s.places.get? u = some id ↔ ∃ a, s.assets.get? id = some a ∧ a.uri = u
  /-- The tasks of an asset are those that name it. -/
  mem_taskIds_iff : ∀ id x, id ∈ s.taskIds x ↔ ∃ t, s.tasks.get? id = some t ∧ t.asset = x
  taskIds_nodup : ∀ x, (s.taskIds x).Nodup

theorem wellFormed_empty : ({} : Store).WellFormed where
  distinct := Directory.distinct_empty
  dataset_name := fun _ _ h => by cases h
  version_key := fun _ _ h => by cases h
  asset_id := fun _ _ h => by cases h
  task_id := fun _ _ h => by cases h
  dataset_of_version := fun _ _ h => by cases h
  version_of_asset := fun _ _ h => by cases h
  asset_of_task := fun _ _ h => by cases h
  place_iff := fun u id => by
    constructor
    · intro h
      cases h
    · rintro ⟨_, h, _⟩
      cases h
  mem_taskIds_iff := fun id x => by
    constructor
    · intro h
      cases h
    · rintro ⟨_, h, _⟩
      cases h
  taskIds_nodup := fun _ => List.nodup_nil

variable {s s' : Store}

/-! ## What operations check -/

theorem createDataset_eq_ok {d : Dataset} (hs : s.createDataset d = .ok s') :
    s' = { s with datasets := s.datasets.insert d.name d } := by
  simp only [createDataset, bind_eq_ok_iff, require_eq_ok_iff] at hs
  obtain ⟨_, _, hs⟩ := hs
  cases hs
  rfl

theorem deleteDataset_eq_ok {name : String} {d : Dataset}
    (hs : s.deleteDataset name = .ok (d, s')) :
    s.hasVersions name = false ∧ s' = { s with datasets := s.datasets.erase name } := by
  simp only [deleteDataset, bind_eq_ok_iff, require_eq_ok_iff, Bool.not_eq_true'] at hs
  obtain ⟨_, _, _, hno, hs⟩ := hs
  cases hs
  exact ⟨hno, rfl⟩

/-- What `createAsset` checks. -/
theorem createAsset_eq_ok {a : Asset} (hs : s.createAsset a = .ok s') :
    (∃ v, s.versions.get? a.key = some v) ∧ s.assets.get? a.id = none ∧
      s.places.get? a.uri = none ∧
      (a.isDefault = true → ∀ b ∈ s.assets.values, b.isDefault = true → b.key ≠ a.key) ∧
      s' = s.fileAsset a := by
  simp only [Store.createAsset, requirePlace, bind_eq_ok_iff, require_eq_ok_iff,
    Bool.not_eq_true'] at hs
  obtain ⟨_, hkey, _, hid, _, huri, _, hdef, hs⟩ := hs
  cases hs
  refine ⟨Directory.contains_iff.mp hkey, Directory.contains_eq_false_iff.mp hid,
    Directory.contains_eq_false_iff.mp huri, ?_, rfl⟩
  intro ha b hb hbd hbk
  rw [ha, Bool.true_and, List.any_eq_false] at hdef
  exact hdef b hb (by simp [hbd, hbk])

/-- What `createVersion` checks, and the store in which it files the version and the asset. -/
theorem createVersion_eq_ok {v : Version} {a : Asset} (hs : s.createVersion v a = .ok s') :
    (∃ d, s.datasets.get? v.key.dataset = some d) ∧ s.versions.get? v.key = none ∧
      s.places.get? a.uri = none ∧ s' =
        ({ (if v.isLatest then s.demoteOthers v.key else s) with
          versions := (if v.isLatest then s.demoteOthers v.key else s).versions.insert v.key v }
          : Store).fileAsset a := by
  simp only [Store.createVersion, requirePlace, bind_eq_ok_iff, require_eq_ok_iff,
    Bool.not_eq_true'] at hs
  obtain ⟨_, hset, _, hkey, _, huri, hs⟩ := hs
  cases hs
  exact ⟨Directory.contains_iff.mp hset, Directory.contains_eq_false_iff.mp hkey,
    Directory.contains_eq_false_iff.mp huri, rfl⟩

theorem deleteAsset_eq_ok {id : AssetId} {a : Asset} (hs : s.deleteAsset id = .ok (a, s')) :
    s.assets.get? id = some a ∧ a.isDefault = false ∧ s' = s.removeAsset a := by
  simp only [Store.deleteAsset, bind_eq_ok_iff, require_eq_ok_iff, Store.asset,
    orElseFail_eq_ok_iff, Bool.not_eq_true'] at hs
  obtain ⟨b, hb, _, hdef, hs⟩ := hs
  cases hs
  exact ⟨hb, hdef, rfl⟩

/-- What `deleteVersion` checks, and the store without the assets of the version. -/
theorem deleteVersion_eq {key : VersionKey} {v : Version} (hs : s.deleteVersion key = .ok (v, s')) :
    s.versions.get? key = some v ∧
      (v.isLatest = true → ∀ k ∈ s.versions.keys, k.dataset = key.dataset → k = key) ∧ s' =
        { (s.assets.values.filter (·.key == key)).foldl Store.removeAsset s with
          versions := ((s.assets.values.filter (·.key == key)).foldl Store.removeAsset
            s).versions.erase key } := by
  simp only [Store.deleteVersion, bind_eq_ok_iff, require_eq_ok_iff, Store.version,
    orElseFail_eq_ok_iff, Bool.not_eq_true'] at hs
  obtain ⟨w, hv, _, hlatest, hs⟩ := hs
  cases hs
  refine ⟨hv, ?_, rfl⟩
  intro hl k hk hd
  rw [hl, Bool.true_and, List.any_eq_false] at hlatest
  by_contra hne
  exact hlatest k hk (by simp [hd, hne])

/-- What `createTask` checks. -/
theorem createTask_eq_ok {t : Task} (hs : s.createTask t = (.ok (), s')) :
    (∃ a, s.assets.get? t.asset = some a) ∧ s.tasks.get? t.id = none ∧ s' = { s with
      assetTasks := s.assetTasks.insert t.asset (s.taskIds t.asset ++ [t.id])
      tasks := s.tasks.insert t.id t } := by
  rw [Store.createTask] at hs
  split at hs
  · cases hs
  split at hs
  · cases hs
  next hasset =>
  split at hs
  · cases hs
  next htask =>
  cases hs
  rw [Bool.not_eq_true, Bool.not_eq_false'] at hasset
  rw [Bool.not_eq_true] at htask
  exact ⟨Directory.contains_iff.mp hasset, Directory.contains_eq_false_iff.mp htask, rfl⟩

/-! ## Removing an asset -/

theorem taskIds_removeAsset (s : Store) (a : Asset) (x : AssetId) :
    (s.removeAsset a).taskIds x = if a.id = x then [] else s.taskIds x := by
  show ((s.assetTasks.erase a.id).get? x).getD [] = _
  rw [Directory.get?_erase]
  split <;> rfl

theorem get?_tasks_removeAsset (s : Store) (a : Asset) (id : TaskId) :
    (s.removeAsset a).tasks.get? id = if id ∈ s.taskIds a.id then none else s.tasks.get? id :=
  Directory.get?_foldl_erase (s.taskIds a.id) s.tasks id

namespace WellFormed

/-! ## What is listed -/

theorem mem_values_iff (hw : s.WellFormed) {a : Asset} :
    a ∈ s.assets.values ↔ s.assets.get? a.id = some a := by
  rw [hw.distinct.mem_values_iff]
  constructor
  · rintro ⟨id, ha⟩
    rw [hw.asset_id id a ha]
    exact ha
  · exact fun ha => ⟨_, ha⟩

/-- No two assets in the store have one id. -/
theorem ids_nodup (hw : s.WellFormed) : (s.assets.values.map (·.id)).Nodup := by
  have hids : s.assets.values.map (·.id) = s.assets.keys := by
    show (s.assets.entries.map (·.2)).map (·.id) = s.assets.entries.map (·.1)
    rw [List.map_map]
    refine List.map_congr_left fun e he => ?_
    exact hw.asset_id e.1 e.2 (hw.distinct.get?_of_mem he)
  rw [hids]
  exact hw.distinct

/-- The tasks of an asset, as they are listed, are the tasks that name it. -/
theorem mem_tasksOf_iff (hw : s.WellFormed) {x : AssetId} {t : Task} :
    t ∈ s.tasksOf x ↔ s.tasks.get? t.id = some t ∧ t.asset = x := by
  show t ∈ (s.taskIds x).filterMap s.tasks.get? ↔ _
  rw [List.mem_filterMap]
  constructor
  · rintro ⟨id, hid, ht⟩
    obtain ⟨u, hu, hx⟩ := (hw.mem_taskIds_iff id x).mp hid
    rw [hu] at ht
    cases ht
    rw [hw.task_id id t hu]
    exact ⟨hu, hx⟩
  · rintro ⟨ht, hx⟩
    exact ⟨t.id, (hw.mem_taskIds_iff t.id x).mpr ⟨t, ht, hx⟩, ht⟩

/-- Every listed id is that of a task. -/
theorem map_id_tasksOf (hw : s.WellFormed) (x : AssetId) :
    (s.tasksOf x).map (·.id) = s.taskIds x := by
  show ((s.taskIds x).filterMap s.tasks.get?).map (·.id) = s.taskIds x
  rw [List.map_filterMap]
  have h : ∀ id ∈ s.taskIds x, (s.tasks.get? id).map (·.id) = some id := by
    intro id hid
    obtain ⟨t, ht, _⟩ := (hw.mem_taskIds_iff id x).mp hid
    rw [ht, Option.map_some, hw.task_id id t ht]
  rw [List.filterMap_congr h, List.filterMap_some]

/-- An asset that is not there has no tasks. -/
theorem taskIds_eq_nil (hw : s.WellFormed) {x : AssetId} (hx : s.assets.get? x = none) :
    s.taskIds x = [] := by
  refine List.eq_nil_iff_forall_not_mem.mpr fun id hid => ?_
  obtain ⟨t, ht, rfl⟩ := (hw.mem_taskIds_iff id x).mp hid
  obtain ⟨a, ha⟩ := hw.asset_of_task id t ht
  rw [hx] at ha
  cases ha

/-! ## Revisions -/

/-- A revision in which records only become what they may keeps a store well-formed. -/
theorem revise (hw : s.WellFormed) {f : AssetId → Asset → Asset}
    {g : VersionKey → Version → Version} {h : TaskId → Task → Task} (r : Revises s s' f g h)
    (hf : ∀ id a, s.assets.get? id = some a → a.Becomes (f id a))
    (hg : ∀ k v, s.versions.get? k = some v → v.Becomes (g k v))
    (hh : ∀ id t, s.tasks.get? id = some t → t.Becomes (h id t)) : s'.WellFormed where
  distinct := by
    rw [Directory.Distinct, r.keys]
    exact hw.distinct
  dataset_name := by
    rw [r.datasets]
    exact hw.dataset_name
  version_key := fun k w hk => by
    obtain ⟨v, hv, rfl⟩ := r.exists_version hk
    rw [(hg k v hv).key, hw.version_key k v hv]
  asset_id := fun id b hb => by
    obtain ⟨a, ha, rfl⟩ := r.exists_asset hb
    rw [(hf id a ha).id, hw.asset_id id a ha]
  task_id := fun id u hu => by
    obtain ⟨t, ht, rfl⟩ := r.exists_task hu
    rw [(hh id t ht).id, hw.task_id id t ht]
  dataset_of_version := fun k w hk => by
    obtain ⟨v, hv, _⟩ := r.exists_version hk
    rw [r.datasets]
    exact hw.dataset_of_version k v hv
  version_of_asset := fun id b hb => by
    obtain ⟨a, ha, rfl⟩ := r.exists_asset hb
    obtain ⟨v, hv⟩ := hw.version_of_asset id a ha
    rw [(hf id a ha).key, r.versions, hv]
    exact ⟨_, rfl⟩
  asset_of_task := fun id u hu => by
    obtain ⟨t, ht, rfl⟩ := r.exists_task hu
    obtain ⟨a, ha⟩ := hw.asset_of_task id t ht
    rw [(hh id t ht).asset, r.assets, ha]
    exact ⟨_, rfl⟩
  place_iff := fun u id => by
    rw [r.places, hw.place_iff]
    constructor
    · rintro ⟨a, ha, hu⟩
      exact ⟨f id a, by rw [r.assets, ha]; rfl, by rw [(hf id a ha).uri]; exact hu⟩
    · rintro ⟨b, hb, hu⟩
      obtain ⟨a, ha, rfl⟩ := r.exists_asset hb
      exact ⟨a, ha, by rw [← (hf id a ha).uri]; exact hu⟩
  mem_taskIds_iff := fun id x => by
    rw [r.taskIds, hw.mem_taskIds_iff]
    constructor
    · rintro ⟨t, ht, hx⟩
      exact ⟨h id t, by rw [r.tasks, ht]; rfl, by rw [(hh id t ht).asset]; exact hx⟩
    · rintro ⟨u, hu, hx⟩
      obtain ⟨t, ht, rfl⟩ := r.exists_task hu
      exact ⟨t, ht, by rw [← (hh id t ht).asset]; exact hx⟩
  taskIds_nodup := fun x => by
    rw [r.taskIds]
    exact hw.taskIds_nodup x

/-! ## Datasets -/

theorem createDataset (hw : s.WellFormed) {d : Dataset} (hs : s.createDataset d = .ok s') :
    s'.WellFormed := by
  obtain rfl := createDataset_eq_ok hs
  refine { hw with dataset_name := ?_, dataset_of_version := ?_ }
  · intro n d' hd
    change (s.datasets.insert d.name d).get? n = some d' at hd
    rw [Directory.get?_insert] at hd
    split at hd
    · next hn =>
      cases hd
      exact hn
    · exact hw.dataset_name n d' hd
  · intro k v hv
    obtain ⟨d', hd⟩ := hw.dataset_of_version k v hv
    show ∃ d', (s.datasets.insert d.name d).get? k.dataset = some d'
    rw [Directory.get?_insert]
    split
    · exact ⟨d, rfl⟩
    · exact ⟨d', hd⟩

theorem deleteDataset (hw : s.WellFormed) {name : String} {d : Dataset}
    (hs : s.deleteDataset name = .ok (d, s')) : s'.WellFormed := by
  obtain ⟨hno, rfl⟩ := deleteDataset_eq_ok hs
  refine { hw with dataset_name := ?_, dataset_of_version := ?_ }
  · intro n d' hd
    change (s.datasets.erase name).get? n = some d' at hd
    rw [Directory.get?_erase] at hd
    split at hd
    · cases hd
    · exact hw.dataset_name n d' hd
  · intro k v hv
    -- a dataset with versions is not removed
    have hne : name ≠ k.dataset := by
      intro he
      have hk : k ∈ s.versions.keys := Directory.mem_keys_iff_get?.mpr ⟨v, hv⟩
      have hany : s.hasVersions name = true :=
        List.any_eq_true.mpr ⟨k, hk, by rw [he]; exact beq_self_eq_true _⟩
      rw [hany] at hno
      cases hno
    show ∃ d', (s.datasets.erase name).get? k.dataset = some d'
    rw [Directory.get?_erase_of_ne hne]
    exact hw.dataset_of_version k v hv

/-! ## New assets -/

/-- Filing an asset with a new id at a free place. -/
theorem fileAsset (hw : s.WellFormed) {a : Asset} (hid : s.assets.get? a.id = none)
    (huri : s.places.get? a.uri = none) (hkey : ∃ v, s.versions.get? a.key = some v) :
    (s.fileAsset a).WellFormed where
  distinct := hw.distinct.insert a.id a
  dataset_name := hw.dataset_name
  version_key := hw.version_key
  task_id := hw.task_id
  dataset_of_version := hw.dataset_of_version
  mem_taskIds_iff := hw.mem_taskIds_iff
  taskIds_nodup := hw.taskIds_nodup
  asset_id := fun id b hb => by
    change (s.assets.insert a.id a).get? id = some b at hb
    rw [Directory.get?_insert] at hb
    split at hb
    · next he =>
      cases hb
      exact he
    · exact hw.asset_id id b hb
  version_of_asset := fun id b hb => by
    change (s.assets.insert a.id a).get? id = some b at hb
    rw [Directory.get?_insert] at hb
    split at hb
    · cases hb
      exact hkey
    · exact hw.version_of_asset id b hb
  asset_of_task := fun id t ht => by
    obtain ⟨b, hb⟩ := hw.asset_of_task id t ht
    show ∃ b, (s.assets.insert a.id a).get? t.asset = some b
    rw [Directory.get?_insert]
    split
    · exact ⟨a, rfl⟩
    · exact ⟨b, hb⟩
  place_iff := fun u id => by
    show (s.places.insert a.uri a.id).get? u = some id ↔
      ∃ b, (s.assets.insert a.id a).get? id = some b ∧ b.uri = u
    rw [Directory.get?_insert, Directory.get?_insert]
    by_cases hu : a.uri = u
    · rw [if_pos hu]
      constructor
      · intro he
        cases he
        exact ⟨a, if_pos rfl, hu⟩
      · rintro ⟨b, hb, hbu⟩
        split at hb
        · next he => rw [he]
        · have hp := (hw.place_iff u id).mpr ⟨b, hb, hbu⟩
          rw [← hu, huri] at hp
          cases hp
    · rw [if_neg hu, hw.place_iff]
      constructor
      · rintro ⟨b, hb, hbu⟩
        have hne : a.id ≠ id := by
          rintro rfl
          rw [hid] at hb
          cases hb
        exact ⟨b, by rw [if_neg hne]; exact hb, hbu⟩
      · rintro ⟨b, hb, hbu⟩
        split at hb
        · cases hb
          exact absurd hbu hu
        · exact ⟨b, hb, hbu⟩

theorem createAsset (hw : s.WellFormed) {a : Asset} (hs : s.createAsset a = .ok s') :
    s'.WellFormed := by
  obtain ⟨hkey, hid, huri, _, rfl⟩ := createAsset_eq_ok hs
  exact hw.fileAsset hid huri hkey

/-- Filing a version with a new key for a dataset that is there. -/
theorem insertVersion (hw : s.WellFormed) {v : Version}
    (hset : ∃ d, s.datasets.get? v.key.dataset = some d) :
    ({ s with versions := s.versions.insert v.key v } : Store).WellFormed := by
  refine { hw with version_key := ?_, dataset_of_version := ?_, version_of_asset := ?_ }
  · intro k w hk
    change (s.versions.insert v.key v).get? k = some w at hk
    rw [Directory.get?_insert] at hk
    split at hk
    · next he =>
      cases hk
      exact he
    · exact hw.version_key k w hk
  · intro k w hk
    change (s.versions.insert v.key v).get? k = some w at hk
    rw [Directory.get?_insert] at hk
    split at hk
    · next he =>
      rw [← he]
      exact hset
    · exact hw.dataset_of_version k w hk
  · intro id a ha
    show ∃ w, (s.versions.insert v.key v).get? a.key = some w
    rw [Directory.get?_insert]
    split
    · exact ⟨v, rfl⟩
    · exact hw.version_of_asset id a ha

theorem demoteOthers (hw : s.WellFormed) (key : VersionKey) : (s.demoteOthers key).WellFormed := by
  refine hw.revise (demoteOthers_revises s key) (fun _ a _ => .refl a) ?_ (fun _ t _ => .refl t)
  intro k v _
  split
  · exact ⟨rfl, List.prefix_refl _⟩
  · exact .refl v

theorem createVersion (hw : s.WellFormed) {v : Version} {a : Asset} (hk : a.key = v.key)
    (hid : s.assets.get? a.id = none) (hs : s.createVersion v a = .ok s') : s'.WellFormed := by
  obtain ⟨hset, _, huri, rfl⟩ := createVersion_eq_ok hs
  have hv : ∃ w, (Directory.insert
      (if v.isLatest then s.demoteOthers v.key else s).versions v.key v).get? a.key = some w :=
    ⟨v, by rw [hk, Directory.get?_insert_self]⟩
  refine fileAsset ?_ ?_ ?_ hv
  · by_cases hl : v.isLatest = true
    · simp only [hl, if_true]
      exact (hw.demoteOthers v.key).insertVersion hset
    · simp only [hl]
      exact hw.insertVersion hset
  · split
    · exact hid
    · exact hid
  · split
    · exact huri
    · exact huri

/-! ## Removed assets -/

/-- The task of another asset stays. -/
theorem get?_task_of_removeAsset (hw : s.WellFormed) (a : Asset) {id : TaskId} {t : Task} :
    (s.removeAsset a).tasks.get? id = some t ↔ s.tasks.get? id = some t ∧ t.asset ≠ a.id := by
  rw [get?_tasks_removeAsset]
  split
  · next hmem =>
    obtain ⟨u, hu, hx⟩ := (hw.mem_taskIds_iff id a.id).mp hmem
    constructor
    · intro h
      cases h
    · rintro ⟨ht, hne⟩
      rw [hu] at ht
      cases ht
      exact absurd hx hne
  · next hmem =>
    constructor
    · intro ht
      exact ⟨ht, fun hx => hmem ((hw.mem_taskIds_iff id a.id).mpr ⟨t, ht, hx⟩)⟩
    · exact fun h => h.1

/-- Removing an asset takes its tasks along. -/
theorem removeAsset (hw : s.WellFormed) {a : Asset} (ha : s.assets.get? a.id = some a) :
    (s.removeAsset a).WellFormed where
  distinct := hw.distinct.erase a.id
  dataset_name := hw.dataset_name
  version_key := hw.version_key
  dataset_of_version := hw.dataset_of_version
  asset_id := fun id b hb => by
    change (s.assets.erase a.id).get? id = some b at hb
    rw [Directory.get?_erase] at hb
    split at hb
    · cases hb
    · exact hw.asset_id id b hb
  task_id := fun id t ht => hw.task_id id t ((hw.get?_task_of_removeAsset a).mp ht).1
  version_of_asset := fun id b hb => by
    change (s.assets.erase a.id).get? id = some b at hb
    rw [Directory.get?_erase] at hb
    split at hb
    · cases hb
    · exact hw.version_of_asset id b hb
  asset_of_task := fun id t ht => by
    obtain ⟨ht, hne⟩ := (hw.get?_task_of_removeAsset a).mp ht
    show ∃ b, (s.assets.erase a.id).get? t.asset = some b
    rw [Directory.get?_erase_of_ne (Ne.symm hne)]
    exact hw.asset_of_task id t ht
  place_iff := fun u id => by
    show (s.places.erase a.uri).get? u = some id ↔
      ∃ b, (s.assets.erase a.id).get? id = some b ∧ b.uri = u
    rw [Directory.get?_erase, Directory.get?_erase]
    constructor
    · intro h
      split at h
      · cases h
      · next hu =>
        obtain ⟨b, hb, hbu⟩ := (hw.place_iff u id).mp h
        -- the removed asset had another place
        have hne : a.id ≠ id := by
          rintro rfl
          rw [ha] at hb
          cases hb
          exact hu hbu
        exact ⟨b, by rw [if_neg hne]; exact hb, hbu⟩
    · rintro ⟨b, hb, hbu⟩
      split at hb
      · cases hb
      · next hne =>
        have hp := (hw.place_iff u id).mpr ⟨b, hb, hbu⟩
        -- the place of the removed asset is its own
        have hu : a.uri ≠ u := by
          rintro rfl
          rw [(hw.place_iff a.uri a.id).mpr ⟨a, ha, rfl⟩] at hp
          cases hp
          exact hne rfl
        rw [if_neg hu]
        exact hp
  mem_taskIds_iff := fun id x => by
    rw [taskIds_removeAsset]
    constructor
    · intro h
      split at h
      · cases h
      · next hne =>
        obtain ⟨t, ht, hx⟩ := (hw.mem_taskIds_iff id x).mp h
        exact ⟨t, (hw.get?_task_of_removeAsset a).mpr ⟨ht, fun e => hne (e.symm.trans hx)⟩, hx⟩
    · rintro ⟨t, ht, rfl⟩
      obtain ⟨ht, hne⟩ := (hw.get?_task_of_removeAsset a).mp ht
      rw [if_neg (Ne.symm hne)]
      exact (hw.mem_taskIds_iff id t.asset).mpr ⟨t, ht, rfl⟩
  taskIds_nodup := fun x => by
    rw [taskIds_removeAsset]
    split
    · exact List.nodup_nil
    · exact hw.taskIds_nodup x

/-- The tasks of the other assets stay. -/
theorem tasksOf_removeAsset (hw : s.WellFormed) (a : Asset) (x : AssetId) :
    (s.removeAsset a).tasksOf x = if a.id = x then [] else s.tasksOf x := by
  have hids := taskIds_removeAsset s a x
  show ((s.removeAsset a).taskIds x).filterMap (s.removeAsset a).tasks.get? = _
  rw [hids]
  split
  · rfl
  · next hne =>
    refine List.filterMap_congr fun id hid => ?_
    obtain ⟨t, ht, hx⟩ := (hw.mem_taskIds_iff id x).mp hid
    rw [ht, (hw.get?_task_of_removeAsset a).mpr ⟨ht, fun e => hne (e.symm.trans hx)⟩]

/-- What is stored beside an asset that is removed is still stored. -/
theorem stored_removeAsset {a : Asset} {as : List Asset}
    (hs : ∀ b ∈ a :: as, s.assets.get? b.id = some b) (hn : ((a :: as).map (·.id)).Nodup) :
    ∀ b ∈ as, (s.removeAsset a).assets.get? b.id = some b := by
  intro b hb
  rw [List.map_cons, List.nodup_cons] at hn
  have hne : a.id ≠ b.id := fun he => hn.1 (he ▸ List.mem_map_of_mem hb)
  show (s.assets.erase a.id).get? b.id = some b
  rw [Directory.get?_erase_of_ne hne]
  exact hs b (List.mem_cons_of_mem a hb)

/-- Removing several assets, each of which is there. -/
theorem foldl_removeAsset {as : List Asset} (hw : s.WellFormed)
    (hs : ∀ a ∈ as, s.assets.get? a.id = some a) (hn : (as.map (·.id)).Nodup) :
    (as.foldl Store.removeAsset s).WellFormed ∧
      (as.foldl Store.removeAsset s).datasets = s.datasets ∧
      (as.foldl Store.removeAsset s).versions = s.versions ∧
      (∀ x, (as.foldl Store.removeAsset s).assets.get? x =
        if x ∈ as.map (·.id) then none else s.assets.get? x) ∧
      ∀ x, x ∉ as.map (·.id) → (as.foldl Store.removeAsset s).tasksOf x = s.tasksOf x := by
  induction as generalizing s with
  | nil => exact ⟨hw, rfl, rfl, fun _ => rfl, fun _ _ => rfl⟩
  | cons a as ih =>
    obtain ⟨hwf, hds, hvs, has, hts⟩ := ih (hw.removeAsset (hs a List.mem_cons_self))
      (stored_removeAsset hs hn) (List.nodup_cons.mp hn).2
    rw [List.foldl_cons]
    refine ⟨hwf, hds, hvs, ?_, ?_⟩
    · intro x
      rw [has]
      show (if _ then none else (s.assets.erase a.id).get? x) = _
      rw [Directory.get?_erase, List.map_cons]
      by_cases hx : x ∈ as.map (·.id)
      · rw [if_pos hx, if_pos (List.mem_cons_of_mem _ hx)]
      · by_cases he : a.id = x
        · rw [if_neg hx, if_pos he, if_pos (he ▸ List.mem_cons_self)]
        · have hne : x ∉ a.id :: as.map (·.id) := by
            rw [List.mem_cons, not_or]
            exact ⟨Ne.symm he, hx⟩
          rw [if_neg hx, if_neg he, if_neg hne]
    · intro x hx
      rw [List.map_cons, List.mem_cons, not_or] at hx
      rw [hts x hx.2, hw.tasksOf_removeAsset, if_neg (Ne.symm hx.1)]

theorem deleteAsset (hw : s.WellFormed) {id : AssetId} {a : Asset}
    (hs : s.deleteAsset id = .ok (a, s')) : s'.WellFormed := by
  obtain ⟨ha, _, rfl⟩ := deleteAsset_eq_ok hs
  exact hw.removeAsset (by rw [hw.asset_id id a ha]; exact ha)

/-- The assets of a version, as they are stored. -/
theorem owned_stored (hw : s.WellFormed) (key : VersionKey) :
    (∀ a ∈ s.assets.values.filter (·.key == key), s.assets.get? a.id = some a) ∧
      ((s.assets.values.filter (·.key == key)).map (·.id)).Nodup := by
  constructor
  · intro a ha
    exact hw.mem_values_iff.mp (List.mem_filter.mp ha).1
  · exact hw.ids_nodup.sublist (List.filter_sublist.map _)

/-- The assets that are removed with a version. -/
theorem mem_owned_iff (hw : s.WellFormed) (key : VersionKey) {x : AssetId} {a : Asset}
    (ha : s.assets.get? x = some a) :
    x ∈ (s.assets.values.filter (·.key == key)).map (·.id) ↔ a.key = key := by
  constructor
  · intro hx
    obtain ⟨b, hb, rfl⟩ := List.mem_map.mp hx
    rw [(hw.owned_stored key).1 b hb] at ha
    cases ha
    exact beq_iff_eq.mp (List.mem_filter.mp hb).2
  · intro hk
    refine List.mem_map.mpr ⟨a, List.mem_filter.mpr ⟨?_, beq_iff_eq.mpr hk⟩, hw.asset_id x a ha⟩
    exact Directory.mem_values_of_get? ha

/-- What `deleteVersion` leaves: no asset of the version and the other assets with their tasks. -/
theorem deleteVersion_eq_ok (hw : s.WellFormed) {key : VersionKey} {v : Version}
    (hs : s.deleteVersion key = .ok (v, s')) :
    s'.WellFormed ∧ s.versions.get? key = some v ∧ s'.versions = s.versions.erase key ∧
      (∀ x, s'.assets.get? x = (s.assets.get? x).filter (·.key != key)) ∧
      ∀ x a, s.assets.get? x = some a → a.key ≠ key → s'.tasksOf x = s.tasksOf x := by
  obtain ⟨hv, _, rfl⟩ := deleteVersion_eq hs
  obtain ⟨hstored, hnodup⟩ := hw.owned_stored key
  obtain ⟨hwf, hds, hvs, has, hts⟩ := hw.foldl_removeAsset hstored hnodup
  have hassets : ∀ x, (List.foldl Store.removeAsset s
      (s.assets.values.filter (·.key == key))).assets.get? x =
        (s.assets.get? x).filter (·.key != key) := by
    intro x
    rw [has]
    cases ha : s.assets.get? x with
    | none => split <;> rfl
    | some a =>
      by_cases hk : a.key = key
      · rw [if_pos ((hw.mem_owned_iff key ha).mpr hk), Option.filter_some_neg (by simp [hk])]
      · rw [if_neg (fun hx => hk ((hw.mem_owned_iff key ha).mp hx)),
          Option.filter_some_pos (by simp [hk])]
  refine ⟨{ hwf with version_key := ?_, dataset_of_version := ?_, version_of_asset := ?_ },
    hv, ?_, hassets, ?_⟩
  · intro k u hu
    change (Directory.erase _ key).get? k = some u at hu
    rw [Directory.get?_erase] at hu
    split at hu
    · cases hu
    · exact hwf.version_key k u hu
  · intro k u hu
    change (Directory.erase _ key).get? k = some u at hu
    rw [Directory.get?_erase] at hu
    split at hu
    · cases hu
    · exact hwf.dataset_of_version k u hu
  · intro x a ha
    -- what is left belongs to another version
    have hne : key ≠ a.key := by
      rintro rfl
      have h := hassets x
      rw [ha] at h
      have hf : (s.assets.get? x).filter (·.key != a.key) = some a := h.symm
      rw [Option.filter_eq_some_iff] at hf
      simp at hf
    show ∃ u, (Directory.erase _ key).get? a.key = some u
    rw [Directory.get?_erase_of_ne hne]
    exact hwf.version_of_asset x a ha
  · show Directory.erase _ key = _
    rw [hvs]
  · intro x a ha hk
    exact hts x fun hx => hk ((hw.mem_owned_iff key ha).mp hx)

/-! ## New tasks -/

theorem createTask (hw : s.WellFormed) {t : Task} (hs : s.createTask t = (.ok (), s')) :
    s'.WellFormed := by
  obtain ⟨hasset, hnone, rfl⟩ := createTask_eq_ok hs
  have hids : ∀ x, ({ s with
      assetTasks := s.assetTasks.insert t.asset (s.taskIds t.asset ++ [t.id])
      tasks := s.tasks.insert t.id t } : Store).taskIds x =
        if t.asset = x then s.taskIds t.asset ++ [t.id] else s.taskIds x := by
    intro x
    show ((s.assetTasks.insert _ _).get? x).getD [] = _
    rw [Directory.get?_insert]
    split <;> rfl
  -- the index knows no task that is not stored
  have hnew : t.id ∉ s.taskIds t.asset := by
    intro hid
    obtain ⟨u, hu, _⟩ := (hw.mem_taskIds_iff _ _).mp hid
    rw [hnone] at hu
    cases hu
  refine { hw with task_id := ?_, asset_of_task := ?_, mem_taskIds_iff := ?_, taskIds_nodup := ?_ }
  · intro id u hu
    change (s.tasks.insert t.id t).get? id = some u at hu
    rw [Directory.get?_insert] at hu
    split at hu
    · next he =>
      cases hu
      exact he
    · exact hw.task_id id u hu
  · intro id u hu
    change (s.tasks.insert t.id t).get? id = some u at hu
    rw [Directory.get?_insert] at hu
    split at hu
    · cases hu
      exact hasset
    · exact hw.asset_of_task id u hu
  · intro id x
    rw [hids]
    show _ ↔ ∃ u, (s.tasks.insert t.id t).get? id = some u ∧ u.asset = x
    rw [Directory.get?_insert]
    by_cases he : t.id = id
    · subst he
      rw [if_pos rfl]
      constructor
      · intro hid
        refine ⟨t, rfl, ?_⟩
        -- no other asset can have the new id in its list
        by_contra hx
        rw [if_neg hx] at hid
        obtain ⟨u, hu, _⟩ := (hw.mem_taskIds_iff _ _).mp hid
        rw [hnone] at hu
        cases hu
      · rintro ⟨u, hu, hx⟩
        cases hu
        rw [if_pos hx]
        exact List.mem_append_right _ List.mem_cons_self
    · rw [if_neg he, ← hw.mem_taskIds_iff]
      split
      · next hx =>
        subst hx
        rw [List.mem_append, List.mem_singleton]
        exact or_iff_left (Ne.symm he)
      · rfl
  · intro x
    rw [hids]
    split
    · rw [← List.concat_eq_append]
      exact (hw.taskIds_nodup t.asset).concat hnew
    · exact hw.taskIds_nodup x

/-- The tasks of an asset after another one was recorded. -/
theorem tasksOf_createTask (hw : s.WellFormed) {t : Task} (hs : s.createTask t = (.ok (), s'))
    (x : AssetId) : s'.tasksOf x = if t.asset = x then s.tasksOf x ++ [t] else s.tasksOf x := by
  obtain ⟨_, hnone, rfl⟩ := createTask_eq_ok hs
  have hold : ∀ y, (s.taskIds y).filterMap (s.tasks.insert t.id t).get? = s.tasksOf y := by
    intro y
    refine List.filterMap_congr fun id hid => ?_
    obtain ⟨u, hu, _⟩ := (hw.mem_taskIds_iff id y).mp hid
    -- an id in the index is that of a stored task, so it is not the new one
    have hne : t.id ≠ id := by
      rintro rfl
      rw [hnone] at hu
      cases hu
    exact Directory.get?_insert_of_ne hne s.tasks t
  show (((s.assetTasks.insert t.asset _).get? x).getD []).filterMap (s.tasks.insert t.id t).get? = _
  rw [Directory.get?_insert]
  split
  · next he =>
    subst he
    rw [Option.getD_some, List.filterMap_append, hold, List.filterMap_cons_some
      (Directory.get?_insert_self s.tasks t.id t), List.filterMap_nil]
  · exact hold x

end WellFormed

end GeoAssets.Store
