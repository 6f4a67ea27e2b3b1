import GeoAssets.Proofs.Catalog.Consistent

/-!
# What a deletion leaves

Deleting an asset takes it out of the store with its place and its tasks, and deleting a version
does so for all its assets. `Store.Without` says what is left, entry by entry and in the old order;
the places of what was deleted can be used again (`Store.IsFree`).
-/

namespace GeoAssets.Store

variable {s s' s'' : Store} {gone gone' : AssetId → Bool}

/-! ## Stores without some assets -/

/-- Some assets are gone with their places and their tasks, and every other record stands where it
stood. -/
structure Without (s : Store) (gone : AssetId → Bool) (s' : Store) : Prop where
  datasets : s'.datasets = s.datasets
  assets : s'.assets.entries = s.assets.entries.filter fun e => !gone e.1
  places : s'.places.entries = s.places.entries.filter fun e => !gone e.2
  tasks : s'.tasks.entries = s.tasks.entries.filter fun e => !gone e.2.asset
  assetTasks : s'.assetTasks.entries = s.assetTasks.entries.filter fun e => !gone e.1
  rejectedTaskWrites : s'.rejectedTaskWrites = s.rejectedTaskWrites

namespace Without

theorem trans (h : s.Without gone s') (h' : s'.Without gone' s'') :
    s.Without (fun x => gone x || gone' x) s'' where
  datasets := h'.datasets.trans h.datasets
  assets := by
    rw [h'.assets, h.assets]
    exact filter_not_filter_not _ _ _
  places := by
    rw [h'.places, h.places]
    exact filter_not_filter_not _ _ _
  tasks := by
    rw [h'.tasks, h.tasks]
    exact filter_not_filter_not _ _ _
  assetTasks := by
    rw [h'.assetTasks, h.assetTasks]
    exact filter_not_filter_not _ _ _
  rejectedTaskWrites := h'.rejectedTaskWrites.trans h.rejectedTaskWrites

theorem nothing (s : Store) : s.Without (fun _ => false) s where
  datasets := rfl
  assets := (List.filter_eq_self.mpr fun _ _ => rfl).symm
  places := (List.filter_eq_self.mpr fun _ _ => rfl).symm
  tasks := (List.filter_eq_self.mpr fun _ _ => rfl).symm
  assetTasks := (List.filter_eq_self.mpr fun _ _ => rfl).symm
  rejectedTaskWrites := rfl

/-! ## What is found -/

theorem get?_assets (h : s.Without gone s') (x : AssetId) :
    s'.assets.get? x = if gone x then none else s.assets.get? x := by
  show Directory.find? x s'.assets.entries = if _ then none else Directory.find? x s.assets.entries
  rw [h.assets, Directory.find?_filter_keys (fun x => !gone x) x]
  cases gone x <;> rfl

/-- A task is there if it was there before and its asset is not gone. -/
theorem get?_tasks (h : s.Without gone s') (ht : s.Tidy) (id : TaskId) :
    s'.tasks.get? id = (s.tasks.get? id).filter (!gone ·.asset) :=
  ht.tasks.get?_of_filter h.tasks id

theorem get?_places (h : s.Without gone s') (ht : s.Tidy) (uri : String) :
    s'.places.get? uri = (s.places.get? uri).filter (!gone ·) :=
  ht.places.get?_of_filter h.places uri

/-- The place of an asset that is gone is empty. -/
theorem place_eq_none (h : s.Without gone s') (hw : s.WellFormed) (ht : s.Tidy) {x : AssetId}
    {a : Asset} (ha : s.assets.get? x = some a) (hx : gone x = true) :
    s'.places.get? a.uri = none := by
  rw [h.get?_places ht, (hw.place_iff a.uri x).mpr ⟨a, ha, rfl⟩]
  exact Option.filter_some_neg (by simp [hx])

end Without

/-! ## Free places -/

/-- Nobody is kept from using a place: a derived asset can be filed there under a new id, and a new
version with its default asset. -/
structure IsFree (s : Store) (uri : String) : Prop where
  asset : ∀ a, a.uri = uri → a.isDefault = false → s.versions.contains a.key = true →
    s.assets.contains a.id = false → s.createAsset a = .ok (s.fileAsset a)
  version : ∀ v a, a.uri = uri → s.datasets.contains v.key.dataset = true →
    s.versions.contains v.key = false → ∃ s', s.createVersion v a = .ok s' ∧
      s'.versions.get? v.key = some v ∧ s'.assets.get? a.id = some a

theorem isFree_of_none {uri : String} (h : s.places.get? uri = none) : s.IsFree uri where
  asset := by
    rintro a rfl hdefault hversion hid
    have hplace : s.places.contains a.uri = false := Directory.contains_eq_false_iff.mpr h
    unfold Store.createAsset requirePlace
    rw [hversion, hid, hplace, hdefault]
    rfl
  version := by
    rintro v a rfl hdataset hversion
    have hplace : s.places.contains a.uri = false := Directory.contains_eq_false_iff.mpr h
    unfold Store.createVersion requirePlace
    rw [hdataset, hversion, hplace]
    exact ⟨_, rfl, Directory.get?_insert_self _ _ _, Directory.get?_insert_self _ _ _⟩

/-! ## Removed assets -/

namespace WellFormed

/-- The store without one asset. -/
theorem without_removeAsset (hw : s.WellFormed) (ht : s.Tidy) {a : Asset}
    (ha : s.assets.get? a.id = some a) :
    s.Without (fun x => decide (x = a.id)) (s.removeAsset a) where
  datasets := rfl
  assets := List.filter_congr fun e _ => by simp
  places := List.filter_congr fun e he => by
    -- the place is that of the asset, and of no other
    obtain ⟨b, hb, hu⟩ := (hw.place_iff e.1 e.2).mp (ht.places.get?_of_mem he)
    have hiff : e.1 = a.uri ↔ e.2 = a.id := by
      constructor
      · intro hp
        have hplace := ht.places.get?_of_mem he
        rw [hp, (hw.place_iff a.uri a.id).mpr ⟨a, ha, rfl⟩] at hplace
        exact (Option.some.inj hplace).symm
      · intro hid
        rw [hid, ha] at hb
        cases hb
        exact hu.symm
    simp [hiff]
  tasks := by
    show (((s.assetTasks.get? a.id).getD []).foldl Directory.erase s.tasks).entries = _
    rw [Directory.entries_foldl_erase]
    refine List.filter_congr fun e he => ?_
    have hget := ht.tasks.get?_of_mem he
    have hiff : e.1 ∈ (s.assetTasks.get? a.id).getD [] ↔ e.2.asset = a.id := by
      refine (hw.mem_taskIds_iff e.1 a.id).trans ⟨?_, fun hx => ⟨e.2, hget, hx⟩⟩
      rintro ⟨t, htask, hx⟩
      rw [hget] at htask
      cases htask
      exact hx
    simp [hiff]
  assetTasks := List.filter_congr fun e _ => by simp
  rejectedTaskWrites := rfl

/-- The store without several assets. -/
theorem without_foldl_removeAsset {as : List Asset} (hw : s.WellFormed) (ht : s.Tidy)
    (hs : ∀ a ∈ as, s.assets.get? a.id = some a) (hn : (as.map (·.id)).Nodup) :
    s.Without (fun x => decide (x ∈ as.map (·.id))) (as.foldl Store.removeAsset s) := by
  induction as generalizing s with
  | nil => exact .nothing s
  | cons a as ih =>
    have ha := hs a List.mem_cons_self
    have hrest := ih (hw.removeAsset ha) (ht.removeAsset a) (stored_removeAsset hs hn)
      (List.nodup_cons.mp hn).2
    have h := (hw.without_removeAsset ht ha).trans hrest
    have hgone : (fun x => decide (x = a.id) || decide (x ∈ as.map (·.id))) =
        fun x => decide (x ∈ (a :: as).map (·.id)) := by
      funext x
      simp
    rw [hgone] at h
    exact h

end WellFormed

/-! ## Deletions -/

/-- Decides whether an asset is one of a version. -/
def isOf (s : Store) (key : VersionKey) (x : AssetId) : Bool :=
  (s.assets.get? x).any (·.key == key)

/-- Deleting an asset leaves the store without it. -/
theorem WellFormed.without_deleteAsset (hw : s.WellFormed) (ht : s.Tidy) {id : AssetId} {a : Asset}
    (hs : s.deleteAsset id = .ok (a, s')) :
    s.assets.get? id = some a ∧ a.isDefault = false ∧ s'.versions = s.versions ∧
      s.Without (fun x => decide (x = id)) s' := by
  obtain ⟨ha, hdefault, rfl⟩ := deleteAsset_eq_ok hs
  have hid := hw.asset_id id a ha
  subst hid
  exact ⟨ha, hdefault, rfl, hw.without_removeAsset ht ha⟩

/-- Deleting a version leaves the store without it and its assets. -/
theorem WellFormed.without_deleteVersion (hw : s.WellFormed) (ht : s.Tidy) {key : VersionKey}
    {v : Version} (hs : s.deleteVersion key = .ok (v, s')) :
    s.versions.get? key = some v ∧
      s'.versions.entries = s.versions.entries.filter (fun e => e.1 ≠ key) ∧
      s.Without (s.isOf key) s' := by
  obtain ⟨hv, _, rfl⟩ := deleteVersion_eq hs
  obtain ⟨hstored, hnodup⟩ := hw.owned_stored key
  have h := hw.without_foldl_removeAsset ht hstored hnodup
  have hgone : (fun x => decide (x ∈ (s.assets.values.filter (·.key == key)).map (·.id))) =
      s.isOf key := by
    funext x
    rw [Bool.eq_iff_iff, decide_eq_true_eq, isOf, Option.any_eq_true]
    constructor
    · intro hx
      obtain ⟨a, ha, rfl⟩ := List.mem_map.mp hx
      exact ⟨a, hstored a ha, (List.mem_filter.mp ha).2⟩
    · rintro ⟨a, ha, hk⟩
      exact (hw.mem_owned_iff key ha).mpr (beq_iff_eq.mp hk)
  rw [hgone] at h
  refine ⟨hv, ?_, { h with }⟩
  show (Directory.erase _ key).entries = _
  rw [(hw.foldl_removeAsset hstored hnodup).2.2.1]
  rfl

end GeoAssets.Store
