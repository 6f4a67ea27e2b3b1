import GeoAssets.Proofs.Compute.Graph
import Mathlib.Data.List.Infix

/-!
# Lists in the order of submission

The jobs of a graph are submitted in the order in which they become free, which need not be the
order in which they were listed. It is, if every job is listed after its parents and no job becomes
free before one that is listed before it (`JobGraph.Steady`). Such a list is put together job by job
or block by block.
-/

namespace GeoAssets

/-! ## Waiting -/

/-- Decides whether a job waits for none but the jobs of some names. -/
def Job.isFreeAfter (done : List String) (j : Job) : Bool :=
  decide (j.parents ⊆ done)

theorem Job.isFreeAfter_iff {done : List String} {j : Job} :
    j.isFreeAfter done = true ↔ j.parents ⊆ done :=
  decide_eq_true_iff

theorem Job.not_isFreeAfter_iff {done : List String} {j : Job} :
    (!j.isFreeAfter done) = true ↔ ¬ j.parents ⊆ done := by
  rw [Bool.not_eq_true', ← Bool.not_eq_true, Job.isFreeAfter_iff]

namespace WaitingJob

/-- A job that waits, once the jobs of some names have been removed. -/
def beyond (done : List String) (j : Job) : WaitingJob :=
  ⟨j, j.parents.filter (· ∉ done)⟩

theorem release_beyond (done : List String) (name : String) (j : Job) :
    (beyond done j).release name = beyond (done ++ [name]) j := by
  simp only [beyond, release, List.filter_filter, List.mem_append, List.mem_singleton]
  congr 1
  refine List.filter_congr fun p _ => ?_
  by_cases hp : p = name <;> simp [hp]

theorem isFree_beyond (done : List String) (j : Job) :
    (beyond done j).isFree = j.isFreeAfter done := by
  rw [Bool.eq_iff_iff, Job.isFreeAfter_iff]
  simp only [beyond, isFree, List.isEmpty_iff, List.filter_eq_nil_iff, decide_eq_true_eq, not_not]
  exact Iff.rfl

theorem filter_isFree_map_beyond (done : List String) (js : List Job) :
    (js.map (beyond done)).filter (·.isFree) =
      (js.filter (·.isFreeAfter done)).map (beyond done) := by
  rw [List.filter_map]
  exact congrArg _ (List.filter_congr fun j _ => isFree_beyond done j)

theorem filter_not_isFree_map_beyond (done : List String) (js : List Job) :
    (js.map (beyond done)).filter (!·.isFree) =
      (js.filter (!·.isFreeAfter done)).map (beyond done) := by
  rw [List.filter_map]
  exact congrArg _ (List.filter_congr fun j _ => congrArg (!·) (isFree_beyond done j))

theorem map_job_map_beyond (done : List String) (js : List Job) :
    (js.map (beyond done)).map (·.job) = js := by
  rw [List.map_map]
  exact List.map_id js

theorem map_release_beyond (done : List String) (name : String) (js : List Job) :
    (js.map (beyond done)).map (·.release name) = js.map (beyond (done ++ [name])) := by
  rw [List.map_map]
  exact List.map_congr_left fun j _ => release_beyond done name j

/-- The jobs that are set free by the removal of another one. -/
theorem freedBy_map_beyond (done : List String) (name : String) (js : List Job) :
    freedBy name (js.map (beyond done)) = js.filter (·.isFreeAfter (done ++ [name])) := by
  rw [freedBy, map_release_beyond, filter_isFree_map_beyond, map_job_map_beyond]

/-- The jobs that go on waiting after the removal of another one. -/
theorem keptBy_map_beyond (done : List String) (name : String) (js : List Job) :
    keptBy name (js.map (beyond done)) =
      (js.filter (!·.isFreeAfter (done ++ [name]))).map (beyond (done ++ [name])) := by
  rw [keptBy, map_release_beyond, filter_not_isFree_map_beyond]

end WaitingJob

/-- What has a property comes first, if nothing has it that stands behind something without. -/
theorem filter_append_others {α : Type} {p : α → Bool} {l : List α}
    (h : l.Pairwise fun x y => p y = true → p x = true) :
    l.filter p ++ l.filter (!p ·) = l := by
  induction l with
  | nil => rfl
  | cons x l ih =>
    obtain ⟨hx, hl⟩ := List.pairwise_cons.mp h
    cases hp : p x with
    | true => simp [hp, ih hl]
    | false =>
      have hnone : ∀ y ∈ l, p y = false := fun y hy =>
        Bool.eq_false_iff.mpr fun hpy => by simp [hx y hy hpy] at hp
      have hno : l.filter p = [] := List.filter_eq_nil_iff.mpr fun y hy => by simp [hnone y hy]
      have hall : l.filter (!p ·) = l := List.filter_eq_self.mpr fun y hy => by simp [hnone y hy]
      simp [hp, hno, hall]

namespace JobGraph

/-- At the beginning, the jobs without parents are in line. -/
theorem arrange_eq_takeFree (jobs : List Job) :
    arrange jobs = takeFree (jobs.filter (·.isFreeAfter []))
      ((jobs.filter (!·.isFreeAfter [])).map (WaitingJob.beyond [])) := by
  have hall : (jobs.map fun j => (⟨j, j.parents⟩ : WaitingJob)) =
      jobs.map (WaitingJob.beyond []) :=
    List.map_congr_left fun j _ => by simp [WaitingJob.beyond]
  unfold arrange
  dsimp only
  rw [hall, WaitingJob.filter_isFree_map_beyond, WaitingJob.map_job_map_beyond,
    WaitingJob.filter_not_isFree_map_beyond]

/-! ## Steady lists -/

/-- Jobs are listed after their parents, and become free in the order of the list. -/
structure Steady (jobs : List Job) : Prop where
  parents : ∀ before j after, jobs = before ++ j :: after → j.parents ⊆ before.map (·.name)
  inTurn : ∀ done, done <+: jobs → jobs.Pairwise fun x y =>
    y.parents ⊆ done.map (·.name) → x.parents ⊆ done.map (·.name)

variable {jobs : List Job}

/-- The parents of listed jobs are listed. -/
theorem Steady.parents_subset (hs : Steady jobs) {j : Job} (hj : j ∈ jobs) :
    j.parents ⊆ jobs.map (·.name) := by
  obtain ⟨before, after, h⟩ := List.append_of_mem hj
  refine List.Subset.trans (hs.parents before j after h) ?_
  rw [h, List.map_append]
  exact List.subset_append_left _ _

/-- Once a part of the list has been removed, the jobs that are free come first in the rest. -/
theorem Steady.free_first (hs : Steady jobs) {done rest : List Job} (hdone : done <+: jobs)
    (hrest : rest.Sublist jobs) :
    rest.filter (·.isFreeAfter (done.map (·.name))) ++
      rest.filter (!·.isFreeAfter (done.map (·.name))) = rest := by
  refine filter_append_others (((hs.inTurn done hdone).sublist hrest).imp fun hxy hy => ?_)
  exact Job.isFreeAfter_iff.mpr (hxy (Job.isFreeAfter_iff.mp hy))

/-- The jobs that are left are taken in the order of the list. -/
theorem Steady.takeFree (hs : Steady jobs) (done line rest : List Job)
    (hjobs : jobs = done ++ line ++ rest)
    (hrest : ∀ j ∈ rest, j.isFreeAfter (done.map (·.name)) = false) :
    JobGraph.takeFree line (rest.map (WaitingJob.beyond (done.map (·.name)))) =
      (line ++ rest, []) := by
  induction hn : line.length + rest.length generalizing done line rest with
  | zero =>
    obtain ⟨hline, hrest⟩ := Nat.add_eq_zero_iff.mp hn
    rw [List.length_eq_zero_iff.mp hline, List.length_eq_zero_iff.mp hrest, List.map_nil,
      JobGraph.takeFree]
    rfl
  | succ n ih =>
    cases line with
    | nil =>
      -- the first of the jobs that are left is free
      cases rest with
      | nil => cases hn
      | cons j rest =>
        rw [List.append_nil] at hjobs
        have hfree := Job.isFreeAfter_iff.mpr (hs.parents done j rest hjobs)
        rw [hrest j List.mem_cons_self] at hfree
        cases hfree
    | cons j line =>
      have hdone : done.map (·.name) ++ [j.name] = (done ++ [j]).map (·.name) := by
        rw [List.map_append, List.map_singleton]
      have hprefix : done ++ [j] <+: jobs := by
        rw [hjobs]
        simp
      have hsplit := hs.free_first hprefix (hjobs ▸ List.sublist_append_right _ rest)
      rw [JobGraph.takeFree, WaitingJob.freedBy_map_beyond, WaitingJob.keptBy_map_beyond, hdone,
        ih (done ++ [j])]
      · rw [List.append_assoc, hsplit]
        rfl
      · rw [hjobs, List.append_assoc (done ++ [j]), List.append_assoc line, hsplit]
        simp
      · intro y hy
        simpa using (List.mem_filter.mp hy).2
      · have hlength := congrArg List.length hsplit
        rw [List.length_append] at hlength
        rw [List.length_append]
        rw [List.length_cons] at hn
        omega

/-- A steady list is in the order of submission. -/
theorem Steady.arrange (hs : Steady jobs) : JobGraph.arrange jobs = (jobs, []) := by
  have hsplit := hs.free_first List.nil_prefix (List.Sublist.refl jobs)
  have htake := hs.takeFree [] _ _ hsplit.symm fun j hj => by
    simpa using (List.mem_filter.mp hj).2
  rw [hsplit] at htake
  rw [arrange_eq_takeFree]
  exact htake

/-! ## Graphs of steady lists -/

/-- A steady list of jobs with distinct names makes a graph, in the order of the list. -/
theorem Steady.ofJobs (hs : Steady jobs) (hn : (jobs.map (·.name)).Nodup) :
    JobGraph.ofJobs jobs = .ok ⟨jobs, jobs, hs.arrange⟩ := by
  have hrepeated : firstRepeated? [] (jobs.map (·.name)) = none :=
    firstRepeated?_eq_none_iff.mpr ⟨hn, fun _ _ => List.not_mem_nil⟩
  have hunknown : firstUnknownParent? jobs = none := by
    refine List.findSome?_eq_none_iff.mpr fun j hj => ?_
    rw [Option.map_eq_none_iff, List.find?_eq_none]
    intro p hp
    simpa using hs.parents_subset hj hp
  unfold JobGraph.ofJobs
  rw [hrepeated, hunknown]
  dsimp only
  split
  · next order h =>
    rw [hs.arrange] at h
    cases h
    rfl
  · next order stuck hstuck h =>
    rw [hs.arrange] at h
    cases h
    exact (hstuck rfl).elim

/-- Jobs of one name make no graph. -/
theorem ofJobs_of_not_nodup (hn : ¬ (jobs.map (·.name)).Nodup) :
    ∃ reason, JobGraph.ofJobs jobs = .error (.invalidOptions reason) := by
  unfold JobGraph.ofJobs
  split
  · exact ⟨_, rfl⟩
  · next h => exact absurd (firstRepeated?_eq_none_iff.mp h).1 hn

/-! ## The first job -/

/-- If only the first job of a steady list waits for nothing, all others wait for it. -/
theorem Steady.first_isAncestor {first : Job} {rest : List Job} (hs : Steady (first :: rest))
    (hrest : ∀ j ∈ rest, j.parents ≠ []) {j : Job} (hj : j ∈ rest) :
    IsAncestor (first :: rest) first.name j.name := by
  obtain ⟨before, after, h⟩ := List.append_of_mem hj
  -- by the number of jobs in between, of which one may be a parent of the job
  induction hn : before.length using Nat.strong_induction_on generalizing j before after with
  | _ n ih =>
    obtain ⟨p, hp⟩ := List.exists_mem_of_ne_nil _ (hrest j hj)
    have hparent : IsParent (first :: rest) p j.name := ⟨j, List.mem_cons_of_mem _ hj, rfl, hp⟩
    have hlisted := hs.parents (first :: before) j after (by rw [h, List.cons_append]) hp
    rcases List.mem_cons.mp hlisted with rfl | hlisted
    · exact hparent.isAncestor
    · obtain ⟨j', hj', rfl⟩ := List.mem_map.mp hlisted
      obtain ⟨before', between, rfl⟩ := List.append_of_mem hj'
      have hrest' : rest = before' ++ j' :: (between ++ j :: after) := by
        rw [h, List.append_assoc, List.cons_append]
      refine Relation.TransGen.tail (ih before'.length ?_ ?_ before' _ hrest' rfl) hparent
      · rw [← hn, List.length_append, List.length_cons]
        omega
      · rw [hrest']
        exact List.mem_append_right _ List.mem_cons_self

/-! ## Putting lists together -/

/-- A job may follow that waits for listed jobs, and is not free before the last of them is. -/
theorem Steady.concat (hs : Steady jobs) {x : Job} (hx : x.parents ⊆ jobs.map (·.name))
    (hlast : ∀ l ∈ jobs.getLast?, ∀ done, done <+: jobs → x.parents ⊆ done.map (·.name) →
      l.parents ⊆ done.map (·.name)) : Steady (jobs ++ [x]) where
  parents := by
    intro before j after h
    rcases List.eq_nil_or_concat after with rfl | ⟨after, y, rfl⟩
    · obtain ⟨rfl, hj⟩ := List.append_inj' h rfl
      cases hj
      exact hx
    · rw [List.concat_eq_append, ← List.cons_append, ← List.append_assoc] at h
      exact hs.parents before j after (List.append_inj' h rfl).1
  inTurn := by
    intro done hdone
    rcases List.prefix_concat_iff.mp hdone with rfl | hdone
    · -- nothing keeps a listed job waiting any more
      have hfree : ∀ y ∈ jobs ++ [x], y.parents ⊆ (jobs ++ [x]).map (·.name) := by
        intro y hy
        rw [List.map_append]
        refine List.subset_append_of_subset_left _ ?_
        rcases List.mem_append.mp hy with hy | hy
        · exact hs.parents_subset hy
        · rw [List.mem_singleton.mp hy]
          exact hx
      exact List.pairwise_of_forall_mem_list fun y hy _ _ _ => hfree y hy
    · refine List.pairwise_append.mpr ⟨hs.inTurn done hdone, List.pairwise_singleton _ _, ?_⟩
      intro y hy x' hx' hfree
      rw [List.mem_singleton.mp hx'] at hfree
      rcases List.eq_nil_or_concat jobs with rfl | ⟨init, l, rfl⟩
      · cases hy
      rw [List.concat_eq_append] at *
      have hl := hlast l (by simp) done hdone hfree
      rcases List.mem_append.mp hy with hy | hy
      · have hturn := (List.pairwise_append.mp (hs.inTurn done hdone)).2.2
        exact hturn y hy l List.mem_cons_self hl
      · rw [List.mem_singleton.mp hy]
        exact hl

/-- Only the whole list contains its last name. -/
theorem eq_of_prefix_of_mem {done : List Job} (hn : (jobs.map (·.name)).Nodup)
    (hdone : done <+: jobs) {l : Job} (hl : l ∈ jobs.getLast?)
    (hmem : l.name ∈ done.map (·.name)) : done = jobs := by
  rcases List.eq_nil_or_concat jobs with rfl | ⟨init, l', rfl⟩
  · cases hl
  rw [List.concat_eq_append] at *
  obtain rfl : l' = l := by simpa using hl
  rcases List.prefix_concat_iff.mp hdone with h | h
  · exact h
  · rw [List.map_append, List.map_singleton] at hn
    have hinit := (h.map (·.name)).subset hmem
    exact absurd rfl ((List.nodup_append.mp hn).2.2 _ hinit _ List.mem_cons_self)

/-- A block of jobs may follow that all wait for the same listed jobs, the last one among them. -/
theorem Steady.block (hs : Steady jobs) {xs : List Job} {ps : List String}
    (hn : (jobs.map (·.name)).Nodup) (hps : ps ⊆ jobs.map (·.name))
    (hlast : ∀ l ∈ jobs.getLast?, l.name ∈ ps) (hxs : ∀ x ∈ xs, x.parents = ps) :
    Steady (jobs ++ xs) := by
  induction xs using List.reverseRecOn with
  | nil => rwa [List.append_nil]
  | append_singleton xs x ih =>
    have hx : x.parents = ps := hxs x (by simp)
    rw [← List.append_assoc]
    refine (ih fun y hy => hxs y (List.mem_append_left _ hy)).concat ?_ ?_
    · rw [hx, List.map_append]
      exact List.subset_append_of_subset_left _ hps
    · intro l hl done hdone hfree
      rw [hx] at hfree
      rcases List.eq_nil_or_concat xs with rfl | ⟨xs, y, rfl⟩
      · -- the first job of the block waits for the last job before it
        rw [List.append_nil] at hl hdone
        rw [eq_of_prefix_of_mem hn hdone hl (hfree (hlast l hl))]
        exact hs.parents_subset (List.mem_of_getLast? hl)
      · obtain rfl : y = l := by simpa using hl
        rw [hxs y (by simp)]
        exact hfree

end JobGraph

end GeoAssets
