import GeoAssets.Proofs.Catalog.Operation
import Mathlib.Data.List.Nodup

/-!
# Consistent stores

`Store.WellFormed` says what is found under a key. `Store.Consistent` says what is filed, entry by
entry: no directory files a key twice, and the two indices are the inverses of the records, with
nothing missing and nothing left over. The one follows from the other in stores whose directories
are tidy (`Store.Tidy`), which every operation keeps.
-/

namespace GeoAssets.Store

variable {s s' : Store} {op : Operation}

/-! ## Tidy stores -/

/-- No key is filed twice, and only assets with tasks are in the index of tasks. -/
structure Tidy (s : Store) : Prop where
  datasets : s.datasets.Distinct
  versions : s.versions.Distinct
  places : s.places.Distinct
  tasks : s.tasks.Distinct
  assetTasks : s.assetTasks.Distinct
  listed : ∀ x, s.assetTasks.get? x ≠ some []

theorem tidy_empty : ({} : Store).Tidy where
  datasets := Directory.distinct_empty
  versions := Directory.distinct_empty
  places := Directory.distinct_empty
  tasks := Directory.distinct_empty
  assetTasks := Directory.distinct_empty
  listed := fun _ h => by cases h

namespace Tidy

theorem fileAsset (ht : s.Tidy) (a : Asset) : (s.fileAsset a).Tidy :=
  { ht with places := ht.places.insert a.uri a.id }

theorem insertVersion (ht : s.Tidy) (key : VersionKey) (v : Version) :
    ({ s with versions := s.versions.insert key v } : Store).Tidy :=
  { ht with versions := ht.versions.insert key v }

theorem demoteOthers (ht : s.Tidy) (key : VersionKey) : (s.demoteOthers key).Tidy :=
  { ht with versions := ht.versions.mapValues _ }

theorem removeAsset (ht : s.Tidy) (a : Asset) : (s.removeAsset a).Tidy where
  datasets := ht.datasets
  versions := ht.versions
  places := ht.places.erase a.uri
  tasks := ht.tasks.foldl_erase _
  assetTasks := ht.assetTasks.erase a.id
  listed := fun x h => by
    change (s.assetTasks.erase a.id).get? x = some [] at h
    rw [Directory.get?_erase] at h
    split at h
    · cases h
    · exact ht.listed x h

theorem foldl_removeAsset (ht : s.Tidy) (as : List Asset) :
    (as.foldl Store.removeAsset s).Tidy := by
  induction as generalizing s with
  | nil => exact ht
  | cons a as ih => exact ih (ht.removeAsset a)

theorem createVersion (ht : s.Tidy) {v : Version} {a : Asset} (hs : s.createVersion v a = .ok s') :
    s'.Tidy := by
  obtain ⟨_, _, _, rfl⟩ := createVersion_eq_ok hs
  refine fileAsset (insertVersion ?_ v.key v) a
  split
  · exact ht.demoteOthers v.key
  · exact ht

theorem setLatest (ht : s.Tidy) {key : VersionKey} {v : Version}
    (hs : s.setLatest key = .ok (v, s')) : s'.Tidy := by
  simp only [Store.setLatest, bind_eq_ok_iff] at hs
  obtain ⟨_, _, hs⟩ := hs
  cases hs
  exact (ht.demoteOthers key).insertVersion key _

theorem deleteVersion (ht : s.Tidy) {key : VersionKey} {v : Version}
    (hs : s.deleteVersion key = .ok (v, s')) : s'.Tidy := by
  obtain ⟨_, _, rfl⟩ := deleteVersion_eq hs
  have hrest := ht.foldl_removeAsset (s.assets.values.filter (·.key == key))
  exact { hrest with versions := hrest.versions.erase key }

theorem updateAsset (ht : s.Tidy) {id : AssetId} {change : Asset → Asset}
    (hs : s.updateAsset id change = .ok s') : s'.Tidy := by
  obtain ⟨_, _, rfl⟩ := updateAsset_eq_ok hs
  exact { ht with }

theorem commit (ht : s.Tidy) {t : Transition} {r : CommitResult} (hs : s.commit t = (r, s')) :
    s'.Tidy := by
  unfold Store.commit at hs
  split at hs
  · cases hs
    exact ht
  · split at hs
    · cases hs
      exact ht
    · dsimp only at hs
      split at hs
      · cases hs
        exact { ht with versions := ht.versions.insert _ _ }
      · cases hs
        exact { ht with }

theorem createTask (ht : s.Tidy) {t : Task} (hs : s.createTask t = (.ok (), s')) : s'.Tidy := by
  obtain ⟨_, _, rfl⟩ := createTask_eq_ok hs
  refine { ht with
    tasks := ht.tasks.insert t.id t
    assetTasks := ht.assetTasks.insert t.asset _
    listed := fun x h => ?_ }
  change (s.assetTasks.insert t.asset (s.taskIds t.asset ++ [t.id])).get? x = some [] at h
  rw [Directory.get?_insert] at h
  split at h
  · simp at h
  · exact ht.listed x h

/-- Every operation keeps the directories tidy. -/
theorem perform (ht : s.Tidy) (h : s.Performs op s') : s'.Tidy := by
  cases h with
  | createDataset h =>
    obtain rfl := createDataset_eq_ok h
    exact { ht with datasets := ht.datasets.insert _ _ }
  | deleteDataset h =>
    obtain ⟨_, rfl⟩ := deleteDataset_eq_ok h
    exact { ht with datasets := ht.datasets.erase _ }
  | createVersion _ _ _ _ _ h => exact ht.createVersion h
  | setLatest h => exact ht.setLatest h
  | appendVersionLog h =>
    obtain ⟨_, _, rfl⟩ := appendVersionLog_eq_ok h
    exact ht.insertVersion _ _
  | deleteVersion h => exact ht.deleteVersion h
  | createAsset _ h =>
    obtain ⟨_, _, _, _, rfl⟩ := createAsset_eq_ok h
    exact ht.fileAsset _
  | deleteAsset h =>
    obtain ⟨_, _, rfl⟩ := deleteAsset_eq_ok h
    exact ht.removeAsset _
  | setExpectedTasks h => exact ht.updateAsset h
  | appendAssetLog h => exact ht.updateAsset h
  | commit _ _ _ h => exact ht.commit h
  | createTask h => exact ht.createTask h
  | appendTaskLog h =>
    obtain ⟨_, _, _, rfl⟩ := appendTaskLog_eq_ok h
    exact { ht with tasks := ht.tasks.insert _ _ }

theorem performAll (ht : s.Tidy) {ops : List Operation} (h : s.PerformsAll ops s') : s'.Tidy := by
  induction h with
  | nil => exact ht
  | cons hop _ ih => exact ih (ht.perform hop)
  | reject _ _ ih => exact ih { ht with }

end Tidy

/-! ## Consistent stores -/

/-- What is filed is consistent, entry by entry. -/
structure Consistent (s : Store) : Prop where
  /-- No key is filed twice. -/
  distinct : s.datasets.Distinct ∧ s.versions.Distinct ∧ s.assets.Distinct ∧ s.tasks.Distinct ∧
    s.places.Distinct ∧ s.assetTasks.Distinct
  /-- Every record is filed under its own key. -/
  dataset_name : ∀ e ∈ s.datasets.entries, e.2.name = e.1
  version_key : ∀ e ∈ s.versions.entries, e.2.key = e.1
  asset_id : ∀ e ∈ s.assets.entries, e.2.id = e.1
  task_id : ∀ e ∈ s.tasks.entries, e.2.id = e.1
  /-- What a record belongs to is there. -/
  dataset_of_version : ∀ v ∈ s.versions.values, v.key.dataset ∈ s.datasets.keys
  version_of_asset : ∀ a ∈ s.assets.values, a.key ∈ s.versions.keys
  asset_of_task : ∀ t ∈ s.tasks.values, t.asset ∈ s.assets.keys
  /-- The places are those of the assets, and no two assets share one. -/
  places : s.places.entries.Perm (s.assets.values.map fun a => (a.uri, a.id))
  uris_nodup : (s.assets.values.map (·.uri)).Nodup
  /-- Lists of tasks are kept for assets, and each task is in the list of its asset. -/
  lists : ∀ e ∈ s.assetTasks.entries, e.1 ∈ s.assets.keys ∧
    ∀ id ∈ e.2, ∃ t, (id, t) ∈ s.tasks.entries ∧ t.asset = e.1
  /-- Together, the lists are the tasks, each once. -/
  listed : s.assetTasks.values.flatten.Perm s.tasks.keys

namespace WellFormed

/-- The entries of the index of places. -/
theorem mem_places_iff (hw : s.WellFormed) (ht : s.Tidy) (e : String × AssetId) :
    e ∈ s.places.entries ↔ e ∈ s.assets.values.map fun a => (a.uri, a.id) := by
  rw [ht.places.mem_entries_iff, hw.place_iff, List.mem_map]
  constructor
  · rintro ⟨a, ha, hu⟩
    refine ⟨a, Directory.mem_values_of_get? ha, ?_⟩
    rw [hu, hw.asset_id _ a ha]
  · rintro ⟨a, ha, rfl⟩
    exact ⟨a, hw.mem_values_iff.mp ha, rfl⟩

theorem places_perm (hw : s.WellFormed) (ht : s.Tidy) :
    s.places.entries.Perm (s.assets.values.map fun a => (a.uri, a.id)) := by
  have hnodup : (s.assets.values.map fun a => (a.uri, a.id)).Nodup := by
    refine List.Nodup.of_map Prod.snd ?_
    rw [List.map_map]
    exact hw.ids_nodup
  exact (List.perm_ext_iff_of_nodup ht.places.entries_nodup hnodup).mpr (hw.mem_places_iff ht)

/-- The list of an asset is not empty, and every task in it is one of the asset. -/
theorem of_mem_assetTasks (hw : s.WellFormed) (ht : s.Tidy) {e : AssetId × List TaskId}
    (he : e ∈ s.assetTasks.entries) :
    e.2 ≠ [] ∧ e.2.Nodup ∧ ∀ id ∈ e.2, ∃ t, s.tasks.get? id = some t ∧ t.asset = e.1 := by
  have hget := ht.assetTasks.get?_of_mem he
  have hids : s.taskIds e.1 = e.2 := by rw [Store.taskIds, hget, Option.getD_some]
  refine ⟨?_, ?_, ?_⟩
  · intro hnil
    rw [hnil] at hget
    exact ht.listed e.1 hget
  · rw [← hids]
    exact hw.taskIds_nodup e.1
  · intro id hid
    rw [← hids] at hid
    exact (hw.mem_taskIds_iff id e.1).mp hid

theorem lists_nodup (hw : s.WellFormed) (ht : s.Tidy) : s.assetTasks.values.flatten.Nodup := by
  refine List.nodup_flatten.mpr ⟨?_, ?_⟩
  · intro ids hids
    obtain ⟨e, he, rfl⟩ := List.mem_map.mp hids
    exact (hw.of_mem_assetTasks ht he).2.1
  · -- a task of two lists would be one of two assets
    have hkeys : s.assetTasks.entries.Pairwise fun e e' => e.1 ≠ e'.1 :=
      List.pairwise_map.mp ht.assetTasks
    refine List.pairwise_map.mpr (hkeys.imp_of_mem ?_)
    intro e e' he he' hne id hid hid'
    obtain ⟨t, hget, hx⟩ := (hw.of_mem_assetTasks ht he).2.2 id hid
    obtain ⟨t', hget', hx'⟩ := (hw.of_mem_assetTasks ht he').2.2 id hid'
    rw [hget] at hget'
    cases hget'
    exact hne (hx.symm.trans hx')

theorem mem_lists_iff (hw : s.WellFormed) (ht : s.Tidy) (id : TaskId) :
    id ∈ s.assetTasks.values.flatten ↔ id ∈ s.tasks.keys := by
  rw [Directory.mem_keys_iff_get?, List.mem_flatten]
  constructor
  · rintro ⟨ids, hids, hid⟩
    obtain ⟨e, he, rfl⟩ := List.mem_map.mp hids
    obtain ⟨t, hget, _⟩ := (hw.of_mem_assetTasks ht he).2.2 id hid
    exact ⟨t, hget⟩
  · rintro ⟨t, hget⟩
    have hmem : id ∈ s.taskIds t.asset := (hw.mem_taskIds_iff id t.asset).mpr ⟨t, hget, rfl⟩
    cases hlist : s.assetTasks.get? t.asset with
    | none =>
      rw [Store.taskIds, hlist] at hmem
      cases hmem
    | some ids =>
      rw [Store.taskIds, hlist] at hmem
      exact ⟨ids, Directory.mem_values_of_get? hlist, hmem⟩

/-- What is found in a tidy store says what is filed. -/
theorem consistent (hw : s.WellFormed) (ht : s.Tidy) : s.Consistent where
  distinct := ⟨ht.datasets, ht.versions, hw.distinct, ht.tasks, ht.places, ht.assetTasks⟩
  dataset_name := fun _ he => hw.dataset_name _ _ (ht.datasets.get?_of_mem he)
  version_key := fun _ he => hw.version_key _ _ (ht.versions.get?_of_mem he)
  asset_id := fun _ he => hw.asset_id _ _ (hw.distinct.get?_of_mem he)
  task_id := fun _ he => hw.task_id _ _ (ht.tasks.get?_of_mem he)
  dataset_of_version := fun v hv => by
    obtain ⟨k, hk⟩ := ht.versions.exists_get?_of_mem hv
    rw [hw.version_key k v hk]
    exact Directory.mem_keys_iff_get?.mpr (hw.dataset_of_version k v hk)
  version_of_asset := fun a ha =>
    Directory.mem_keys_iff_get?.mpr (hw.version_of_asset a.id a (hw.mem_values_iff.mp ha))
  asset_of_task := fun t ht' => by
    obtain ⟨id, hid⟩ := ht.tasks.exists_get?_of_mem ht'
    exact Directory.mem_keys_iff_get?.mpr (hw.asset_of_task id t hid)
  places := hw.places_perm ht
  uris_nodup := by
    have huris : (s.assets.values.map fun a => (a.uri, a.id)).map Prod.fst =
        s.assets.values.map (·.uri) := List.map_map
    rw [← huris]
    exact ((hw.places_perm ht).map Prod.fst).nodup_iff.mp ht.places
  lists := fun e he => by
    obtain ⟨hne, _, htasks⟩ := hw.of_mem_assetTasks ht he
    constructor
    · -- the first task in the list belongs to an asset that is there
      obtain ⟨id, hid⟩ := List.exists_mem_of_ne_nil e.2 hne
      obtain ⟨t, hget, hx⟩ := htasks id hid
      rw [← hx]
      exact Directory.mem_keys_iff_get?.mpr (hw.asset_of_task id t hget)
    · intro id hid
      obtain ⟨t, hget, hx⟩ := htasks id hid
      exact ⟨t, Directory.mem_entries_of_get? hget, hx⟩
  listed := (List.perm_ext_iff_of_nodup (hw.lists_nodup ht) ht.tasks).mpr (hw.mem_lists_iff ht)

end WellFormed

end GeoAssets.Store
