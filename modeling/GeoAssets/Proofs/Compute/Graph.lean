import GeoAssets.Compute.Graph
import Mathlib.Data.List.Perm.Basic
import Mathlib.Logic.Relation

/-!
# Job graphs

A graph has jobs with distinct names, which are submitted in an order of all of them: each is taken
once. A job is an ancestor of another one if that waits for it, perhaps through others.
-/

namespace GeoAssets

namespace WaitingJob

theorem filter_perm (ws : List WaitingJob) :
    (ws.filter (·.isFree) ++ ws.filter (!·.isFree)).Perm ws :=
  List.filter_append_perm _ ws

/-- Releasing jobs loses none. -/
theorem freedBy_perm (done : String) (waiting : List WaitingJob) :
    (freedBy done waiting ++ (keptBy done waiting).map (·.job)).Perm (waiting.map (·.job)) := by
  unfold freedBy keptBy
  rw [← List.map_append]
  refine ((filter_perm _).map _).trans ?_
  rw [List.map_map]
  exact List.Perm.refl _

end WaitingJob

namespace JobGraph

/-- No name is found that stands in the list for the second time, if there is none. -/
theorem firstRepeated?_eq_none_iff {seen names : List String} :
    firstRepeated? seen names = none ↔ names.Nodup ∧ ∀ n ∈ names, n ∉ seen := by
  induction names generalizing seen with
  | nil => simp [firstRepeated?]
  | cons n rest ih =>
    unfold firstRepeated?
    split
    · next hn => simp [hn]
    · next hn =>
      rw [ih, List.nodup_cons, List.forall_mem_cons]
      constructor
      · rintro ⟨hnodup, hnot⟩
        exact ⟨⟨fun hmem => hnot n hmem List.mem_cons_self, hnodup⟩, hn,
          fun m hm hseen => hnot m hm (List.mem_cons_of_mem n hseen)⟩
      · rintro ⟨⟨hmem, hnodup⟩, _, hnot⟩
        refine ⟨hnodup, fun m hm hseen => ?_⟩
        rcases List.mem_cons.mp hseen with rfl | hseen
        · exact hmem hm
        · exact hnot m hm hseen

/-- Taking jobs loses none. -/
theorem takeFree_perm (line : List Job) (waiting : List WaitingJob) :
    ((takeFree line waiting).1 ++ (takeFree line waiting).2.map (·.job)).Perm
      (line ++ waiting.map (·.job)) := by
  induction line, waiting using takeFree.induct with
  | case1 waiting =>
    rw [takeFree]
  | case2 j line waiting ih =>
    rw [takeFree]
    refine (ih.trans ?_).cons j
    rw [List.append_assoc]
    exact (WaitingJob.freedBy_perm j.name waiting).append_left line

/-- Every job is submitted once. -/
theorem order_perm (g : JobGraph) : g.order.Perm g.jobs := by
  have h := takeFree_perm
    (((g.jobs.map fun j => (⟨j, j.parents⟩ : WaitingJob)).filter (·.isFree)).map (·.job))
    ((g.jobs.map fun j => (⟨j, j.parents⟩ : WaitingJob)).filter (!·.isFree))
  have harranged := g.arranged
  unfold arrange at harranged
  dsimp only at harranged
  rw [harranged, List.map_nil, List.append_nil, ← List.map_append] at h
  refine h.trans (((WaitingJob.filter_perm _).map _).trans ?_)
  rw [List.map_map]
  exact List.Perm.of_eq (List.map_id _)

theorem length_order (g : JobGraph) : g.order.length = g.size :=
  g.order_perm.length_eq

theorem order_of_isEmpty (g : JobGraph) (h : g.isEmpty = true) : g.order = [] := by
  refine List.eq_nil_of_length_eq_zero ?_
  rw [g.length_order]
  exact List.length_eq_zero_iff.mpr (List.isEmpty_iff.mp h)

theorem order_ne_nil (g : JobGraph) (h : g.isEmpty = false) : g.order ≠ [] := by
  intro hnil
  have hlength := g.length_order
  rw [hnil] at hlength
  rw [isEmpty, List.isEmpty_eq_false_iff] at h
  exact h (List.length_eq_zero_iff.mp hlength.symm)

/-! ## Parents -/

/-- Among some jobs, one waits for another; both are given by name. -/
def IsParent (jobs : List Job) (parent child : String) : Prop :=
  ∃ j ∈ jobs, j.name = child ∧ parent ∈ j.parents

/-- Among some jobs, one waits for another, perhaps through others. -/
def IsAncestor (jobs : List Job) : String → String → Prop :=
  Relation.TransGen (IsParent jobs)

theorem IsParent.isAncestor {jobs : List Job} {parent child : String}
    (h : IsParent jobs parent child) : IsAncestor jobs parent child :=
  Relation.TransGen.single h

end JobGraph

end GeoAssets
