import GeoAssets.Proofs.Plan.Parts
import Mathlib

/-!
# Names of jobs

The name of a job begins with a stem that tells its part. So the names of the jobs that load a table
are distinct if those of the indices are: all other parts are numbered, or named after what is
distinct already.
-/

namespace GeoAssets.Plan

/-! ## Stems -/

/-- The first characters of a name. -/
def stem (name : String) : List Char :=
  name.toList.take 8

/-- The names of groups are distinct, if each group has distinct names and a stem of its own. -/
theorem nodup_of_stems (groups : List (List Char × List String))
    (hstems : (groups.map (·.1)).Nodup)
    (hgroups : ∀ g ∈ groups, g.2.Nodup ∧ ∀ n ∈ g.2, stem n = g.1) :
    (groups.flatMap (·.2)).Nodup := by
  induction groups with
  | nil => exact List.nodup_nil
  | cons g groups ih =>
    obtain ⟨hg, hgroups⟩ := List.forall_mem_cons.mp hgroups
    obtain ⟨hst, hstems⟩ := List.nodup_cons.mp hstems
    rw [List.flatMap_cons, List.nodup_append]
    refine ⟨hg.1, ih hstems hgroups, ?_⟩
    rintro n hn m hm rfl
    obtain ⟨g', hg', hm⟩ := List.mem_flatMap.mp hm
    refine hst (List.mem_map.mpr ⟨g', hg', ?_⟩)
    rw [← (hgroups g' hg').2 n hm, hg.2 n hn]

theorem stem_append {text : String} (h : 8 ≤ text.length) (rest : String) :
    stem (text ++ rest) = stem text := by
  rw [stem, String.toList_append, List.take_append_of_le_length (by rwa [String.length_toList])]
  rfl

/-- The names of a template are distinct if those of the indices are, provided that the other parts
have distinct names, and each part has a stem of its own. -/
theorem Template.nodup_names_iff {t : Template} {loads indices clusters closing : List Char}
    (hstems : [stem t.create, loads, stem t.enrich, indices, clusters, closing].Nodup)
    (hloads : t.loads.Nodup ∧ ∀ n ∈ t.loads, stem n = loads)
    (hindices : ∀ n ∈ t.indices, stem n = indices)
    (hclusters : t.clusters.Nodup ∧ ∀ n ∈ t.clusters, stem n = clusters)
    (hclosing : ∀ n ∈ t.closing, stem n = closing) : t.names.Nodup ↔ t.indices.Nodup := by
  constructor
  · intro h
    refine h.sublist ?_
    unfold Template.names
    exact ((List.sublist_append_right _ _).trans (List.sublist_append_left _ _)).trans
      (List.sublist_append_left _ _)
  · intro h
    have hnodup := nodup_of_stems
      [(stem t.create, [t.create]), (loads, t.loads), (stem t.enrich, [t.enrich]),
        (indices, t.indices), (clusters, t.clusters), (closing, t.closing.toList)] hstems ?_
    · simpa [Template.names] using hnodup
    · have hone : ∀ n, [n].Nodup ∧ ∀ m ∈ [n], stem m = stem n := fun n =>
        ⟨List.nodup_singleton n, fun m hm => congrArg stem (List.mem_singleton.mp hm)⟩
      have hlast : t.closing.toList.Nodup ∧ ∀ n ∈ t.closing.toList, stem n = closing := by
        refine ⟨?_, by simpa using hclosing⟩
        cases t.closing <;> simp
      intro g hg
      simp only [List.mem_cons, List.not_mem_nil, or_false] at hg
      rcases hg with rfl | rfl | rfl | rfl | rfl | rfl
      exacts [hone _, hloads, hone _, ⟨h, hindices⟩, hclusters, hlast]

/-! ## Names of a part -/

/-- Names with numbers are distinct. -/
theorem nodup_numbered (text : String) (n : Nat) :
    ((List.range n).map fun i => text ++ toString i).Nodup := by
  refine List.Nodup.map (fun i j h => ?_) List.nodup_range
  exact Nat.repr_inj.mp ((String.append_right_inj text).mp h)

/-- Names with different ends are distinct. -/
theorem nodup_append_iff (text : String) {α : Type} (f : α → String) (l : List α) :
    (l.map fun x => text ++ f x).Nodup ↔ (l.map f).Nodup := by
  have hmap : (l.map fun x => text ++ f x) = (l.map f).map (text ++ ·) := by
    rw [List.map_map]
    rfl
  rw [hmap, List.nodup_map_iff fun _ _ => (String.append_right_inj text).mp]

/-- The names of jobs that are numbered. -/
theorem names_mapIdx {α : Type} {f : Nat → α → Job} {name : Nat → String}
    (h : ∀ i x, (f i x).name = name i) (xs : List α) :
    names (xs.mapIdx f) = (List.range xs.length).map name := by
  refine List.ext_getElem? fun i => ?_
  rw [getElem?_names, List.getElem?_mapIdx, List.getElem?_map]
  rcases Nat.lt_or_ge i xs.length with hi | hi
  · simp [hi, h]
  · simp [hi]

theorem names_indexJobs (b : Brief) (parent : String) (timeout : Option UInt64)
    (indices : List IndexSpec) :
    names (indexJobs b parent timeout indices) =
      indices.map fun i => "create_index_" ++ i.slug := by
  unfold names indexJobs
  rw [List.map_map]
  rfl

theorem parents_of_mem_indexJobs {b : Brief} {parent : String} {timeout : Option UInt64}
    {indices : List IndexSpec} {j : Job} (hj : j ∈ indexJobs b parent timeout indices) :
    j.parents = [parent] := by
  obtain ⟨_, _, rfl⟩ := List.mem_map.mp hj
  rfl

end GeoAssets.Plan
