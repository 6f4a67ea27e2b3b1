import GeoAssets.Proofs.Catalog.Consistent
import GeoAssets.Proofs.Catalog.Latest
import Mathlib.Data.List.Dedup

/-!
# Emptying a dataset

A latest version cannot be deleted while its dataset has others. So the versions of a dataset are
deleted in an order in which the latest one comes last (`Store.EmptyingOrder`). There is one as long
as a dataset has at most one latest version, and what follows in the order does not depend on what
happens to other datasets. In the end the dataset itself can be deleted, and nothing in the store
belongs to it any more (`Store.LacksDataset`).
-/

namespace GeoAssets.Store

variable {s s' : Store} {dataset : String} {key : VersionKey} {keys : List VersionKey}

/-! ## Orders -/

/-- The versions of a dataset, each once, in an order in which no latest one precedes another. -/
structure EmptyingOrder (s : Store) (dataset : String) (keys : List VersionKey) : Prop where
  nodup : keys.Nodup
  mem_iff : ∀ k, k ∈ keys ↔ k.dataset = dataset ∧ ∃ v, s.versions.get? k = some v
  latest_last : keys.Pairwise fun k _ => ¬ s.IsLatest k

theorem tag?_ne_none_iff {k : VersionKey} :
    s.tag? k ≠ none ↔ ∃ v, s.versions.get? k = some v :=
  (not_congr tag?_eq_none_iff).trans Option.ne_none_iff_exists'

/-- A dataset with at most one latest version has such an order. -/
theorem exists_emptyingOrder (hone : s.OneLatest) (dataset : String) :
    ∃ keys, s.EmptyingOrder dataset keys := by
  classical
  let all := s.versions.keys.dedup.filter (·.dataset = dataset)
  have hall : ∀ k, k ∈ all ↔ k.dataset = dataset ∧ ∃ v, s.versions.get? k = some v := by
    intro k
    simp only [all, List.mem_filter, List.mem_dedup, decide_eq_true_eq,
      Directory.mem_keys_iff_get?]
    exact and_comm
  have hnodup : all.Nodup := (List.nodup_dedup _).filter _
  have hperm := List.filter_append_perm (fun k => decide ¬ s.IsLatest k) all
  refine ⟨_, hperm.nodup_iff.mpr hnodup, fun k => hperm.mem_iff.trans (hall k), ?_⟩
  refine List.pairwise_append.mpr ⟨?_, ?_, ?_⟩
  · exact List.pairwise_of_forall_mem_list fun k hk _ _ => by simpa using (List.mem_filter.mp hk).2
  · -- there are no two latest versions
    refine (hnodup.filter _).imp_of_mem fun {k k'} hk hk' hne hlatest => hne ?_
    obtain ⟨hk, _⟩ := List.mem_filter.mp hk
    obtain ⟨hk', hlatest'⟩ := List.mem_filter.mp hk'
    refine hone k k' (isLatest_iff.mp hlatest) (isLatest_iff.mp (by simpa using hlatest')) ?_
    exact ((hall k).mp hk).1.trans ((hall k').mp hk').1.symm
  · exact fun k hk _ _ => by simpa using (List.mem_filter.mp hk).2

namespace EmptyingOrder

/-- What happens to the versions of other datasets does not matter. -/
theorem congr (h : s.EmptyingOrder dataset keys)
    (htag : ∀ k, k.dataset = dataset → s'.tag? k = s.tag? k) : s'.EmptyingOrder dataset keys where
  nodup := h.nodup
  mem_iff := fun k => by
    rw [h.mem_iff]
    refine and_congr_right fun hk => ?_
    rw [← tag?_ne_none_iff, ← tag?_ne_none_iff, htag k hk]
  latest_last := h.latest_last.imp_of_mem fun {k _} hk _ hno hlatest => by
    rw [isLatest_iff, htag k ((h.mem_iff k).mp hk).1] at hlatest
    exact hno (isLatest_iff.mpr hlatest)

/-- The first version can be deleted. -/
theorem deleteVersion_ok (h : s.EmptyingOrder dataset (key :: keys)) :
    ∃ v s', s.deleteVersion key = .ok (v, s') := by
  obtain ⟨hdataset, v, hv⟩ := (h.mem_iff key).mp List.mem_cons_self
  have hguard : (v.isLatest &&
      s.versions.keys.any fun k => k.dataset == key.dataset && k != key) = false := by
    rw [Bool.and_eq_false_imp, List.any_eq_false]
    intro hlatest k hk hsibling
    simp only [Bool.and_eq_true, beq_iff_eq, bne_iff_ne] at hsibling
    -- a sibling would follow the latest version
    have hmem := (h.mem_iff k).mpr
      ⟨hsibling.1.trans hdataset, Directory.mem_keys_iff_get?.mp hk⟩
    have hlater := (List.mem_cons.mp hmem).resolve_left hsibling.2
    exact (List.pairwise_cons.mp h.latest_last).1 k hlater ⟨v, hv, hlatest⟩
  unfold deleteVersion Store.version
  rw [hv]
  simp only [orElseFail, bind, Except.bind, hguard]
  exact ⟨_, _, rfl⟩

/-- Once the first version was deleted, the others are left. -/
theorem tail (h : s.EmptyingOrder dataset (key :: keys))
    {v : Version} (hs : s.deleteVersion key = .ok (v, s')) : s'.EmptyingOrder dataset keys where
  nodup := (List.nodup_cons.mp h.nodup).2
  mem_iff := fun k => by
    have hmem := h.mem_iff k
    rw [← tag?_ne_none_iff, List.mem_cons] at hmem
    rw [← tag?_ne_none_iff, tag?_deleteVersion hs]
    by_cases hk : k = key
    · subst hk
      simp [(List.nodup_cons.mp h.nodup).1]
    · rw [if_neg hk, ← hmem]
      simp [hk]
  latest_last := (List.pairwise_cons.mp h.latest_last).2.imp fun {k _} hno hlatest => by
    rw [isLatest_iff, tag?_deleteVersion hs] at hlatest
    split at hlatest
    · cases hlatest
    · exact hno (isLatest_iff.mpr hlatest)

/-- A dataset without versions can be deleted. -/
theorem deleteDataset_ok (h : s.EmptyingOrder dataset []) {d : Dataset}
    (hd : s.datasets.get? dataset = some d) : ∃ d s', s.deleteDataset dataset = .ok (d, s') := by
  have hno : s.hasVersions dataset = false := by
    refine List.any_eq_false.mpr fun k hk hdataset => ?_
    exact List.not_mem_nil ((h.mem_iff k).mpr
      ⟨by simpa using hdataset, Directory.mem_keys_iff_get?.mp hk⟩)
  unfold deleteDataset
  rw [hd, hno]
  exact ⟨_, _, rfl⟩

end EmptyingOrder

/-! ## Other datasets -/

theorem tag?_createVersion {v : Version} {a : Asset} (hs : s.createVersion v a = .ok s')
    {k : VersionKey} (hk : k.dataset ≠ v.key.dataset) : s'.tag? k = s.tag? k := by
  have hne : v.key ≠ k := fun h => hk (congrArg VersionKey.dataset h.symm)
  obtain ⟨_, _, _, rfl⟩ := createVersion_eq_ok hs
  show ((Directory.insert _ v.key v).get? k).map (·.isLatest) = _
  rw [Directory.get?_insert_of_ne hne]
  split
  · rw [(demoteOthers_revises s v.key).versions, Option.map_map, Store.tag?]
    simp [hk, Function.comp_def]
  · rfl

theorem tag?_setLatest {v : Version} (hs : s.setLatest key = .ok (v, s')) {k : VersionKey}
    (hk : k.dataset ≠ key.dataset) : s'.tag? k = s.tag? k := by
  have hne : k ≠ key := fun h => hk (congrArg VersionKey.dataset h)
  simp only [setLatest, bind_eq_ok_iff] at hs
  obtain ⟨u, _, hs⟩ := hs
  cases hs
  refine (congrFun (tag?_insert_demoteOthers s rfl) k).trans ?_
  rw [crowned, if_neg hne, if_neg hk]

/-! ## Datasets -/

theorem datasets_foldl_removeAsset (as : List Asset) (s : Store) :
    (as.foldl removeAsset s).datasets = s.datasets := by
  induction as generalizing s with
  | nil => rfl
  | cons a as ih => exact ih (s.removeAsset a)

theorem datasets_deleteVersion {v : Version} (hs : s.deleteVersion key = .ok (v, s')) :
    s'.datasets = s.datasets := by
  obtain ⟨_, _, rfl⟩ := deleteVersion_eq hs
  exact datasets_foldl_removeAsset _ s

theorem datasets_createTask (s : Store) (t : Task) : (s.createTask t).2.datasets = s.datasets := by
  unfold createTask
  repeat' split
  all_goals rfl

theorem datasets_commit (s : Store) (t : Transition) : (s.commit t).2.datasets = s.datasets := by
  cases ha : s.assets.get? t.asset with
  | none => rw [commit, ha]
  | some a =>
    cases hfinal : a.status.isTerminal with
    | true =>
      rw [commit, ha]
      simp only [hfinal, if_true]
    | false =>
      obtain ⟨s₁, hs, r⟩ := commit_of_pending ha hfinal
      rw [hs]
      exact r.datasets

/-! ## What is left -/

/-- Nothing in a store belongs to a dataset: tasks, places and lists of tasks belong to assets, and
these are there and belong to versions of other datasets. -/
structure LacksDataset (s : Store) (dataset : String) : Prop where
  absent : dataset ∉ s.datasets.keys
  version : ∀ k ∈ s.versions.keys, k.dataset ≠ dataset
  asset : ∀ a ∈ s.assets.values, a.key.dataset ≠ dataset
  task : ∀ t ∈ s.tasks.values, ∃ a ∈ s.assets.values, a.key.dataset ≠ dataset ∧ a.id = t.asset
  place : ∀ e ∈ s.places.entries, ∃ a ∈ s.assets.values,
    a.key.dataset ≠ dataset ∧ (a.uri, a.id) = e
  list : ∀ e ∈ s.assetTasks.entries, ∃ a ∈ s.assets.values,
    a.key.dataset ≠ dataset ∧ a.id = e.1

/-- A consistent store without a dataset lacks everything that could belong to it. -/
theorem Consistent.lacksDataset (h : s.Consistent) (hno : dataset ∉ s.datasets.keys) :
    s.LacksDataset dataset := by
  have hversion : ∀ k ∈ s.versions.keys, k.dataset ≠ dataset := by
    intro k hk hdataset
    obtain ⟨e, he, rfl⟩ := List.mem_map.mp hk
    have hthere := h.dataset_of_version e.2 (List.mem_map_of_mem he)
    rw [h.version_key e he, hdataset] at hthere
    exact hno hthere
  have hasset : ∀ a ∈ s.assets.values, a.key.dataset ≠ dataset := fun a ha =>
    hversion a.key (h.version_of_asset a ha)
  have howner : ∀ x ∈ s.assets.keys,
      ∃ a ∈ s.assets.values, a.key.dataset ≠ dataset ∧ a.id = x := by
    intro x hx
    obtain ⟨e, he, rfl⟩ := List.mem_map.mp hx
    have ha : e.2 ∈ s.assets.values := List.mem_map_of_mem he
    exact ⟨e.2, ha, hasset e.2 ha, h.asset_id e he⟩
  exact {
    absent := hno
    version := hversion
    asset := hasset
    task := fun t ht => howner t.asset (h.asset_of_task t ht)
    place := fun e he => by
      obtain ⟨a, ha, rfl⟩ := List.mem_map.mp (h.places.mem_iff.mp he)
      exact ⟨a, ha, hasset a ha, rfl⟩
    list := fun e he => howner e.1 (h.lists e he).1 }

end GeoAssets.Store
