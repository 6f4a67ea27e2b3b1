import GeoAssets.Proofs.Compute.Order

/-!
# Ties

While the jobs of a graph are taken one after the other, several can be ready at a time. Then the
one is taken that has been ready for longest, and among those that became ready together the one
that is listed first (`JobGraph.TakesLongestReady`). This need not be the first of the ready jobs in
the list (`JobGraph.TakesFirstListed`): a job that is listed late but was ready early is taken
before one that is listed early but became ready late.
-/

namespace GeoAssets

namespace JobGraph

variable {jobs taken line rest : List Job} {j k : Job}

/-! ## Ready jobs -/

/-- A job stands before another one in a list. -/
def ListedBefore (jobs : List Job) (j k : Job) : Prop :=
  [j, k].Sublist jobs

instance : Decidable (ListedBefore jobs j k) :=
  inferInstanceAs (Decidable ([j, k].Sublist jobs))

/-- A job of a list can be taken next: it has not been taken, but all its parents have been. -/
structure Ready (jobs taken : List Job) (j : Job) : Prop where
  listed : j ∈ jobs
  left : j ∉ taken
  free : j.parents ⊆ taken.map (·.name)

/-- Of two jobs that are ready, the one became ready before the other, or at the same time and is
listed before it. -/
inductive AheadOf (jobs taken : List Job) (j k : Job) : Prop
  | earlier (done : List Job) (hdone : done <+: taken) (hj : j.parents ⊆ done.map (·.name))
      (hk : ¬ k.parents ⊆ done.map (·.name))
  | together
      (hsame : ∀ done, done <+: taken →
        (j.parents ⊆ done.map (·.name) ↔ k.parents ⊆ done.map (·.name)))
      (hlisted : ListedBefore jobs j k)

/-- Every job of an order is the first one in the list that is ready. -/
def TakesFirstListed (jobs order : List Job) : Prop :=
  ∀ before j after, order = before ++ j :: after → Ready jobs before j ∧
    ∀ k, Ready jobs before k → k ≠ j → ListedBefore jobs j k

/-- Every job of an order is the one that has been ready for longest, and is listed first of those
that became ready together with it. -/
def TakesLongestReady (jobs order : List Job) : Prop :=
  ∀ before j after, order = before ++ j :: after → Ready jobs before j ∧
    ∀ k, Ready jobs before k → k ≠ j → AheadOf jobs before j k

/-- Jobs that are ready stay in the order in which they became so. -/
theorem AheadOf.concat (h : AheadOf jobs taken j k) (hj : j.parents ⊆ taken.map (·.name))
    (hk : k.parents ⊆ taken.map (·.name)) (next : Job) : AheadOf jobs (taken ++ [next]) j k := by
  cases h with
  | earlier done hdone hj hk =>
    exact .earlier done (hdone.trans (List.prefix_append taken [next])) hj hk
  | together hsame hlisted =>
    refine .together (fun done hdone => ?_) hlisted
    rcases List.prefix_concat_iff.mp hdone with rfl | hdone
    · simp [List.subset_append_of_subset_left _ hj, List.subset_append_of_subset_left _ hk]
    · exact hsame done hdone

/-- A job that is not ready was not so before. -/
theorem not_free_before {done : List Job} (hdone : done <+: taken)
    (hj : ¬ j.parents ⊆ taken.map (·.name)) : ¬ j.parents ⊆ done.map (·.name) :=
  fun h => hj (List.Subset.trans h (hdone.map _).subset)

/-! ## Taking jobs -/

/-- The jobs that have been taken, those in line and the rest make up the list. The jobs in line are
ready, those behind each other in the order in which they became so, and the rest is not. -/
structure LinedUp (jobs taken line rest : List Job) : Prop where
  perm : (taken ++ (line ++ rest)).Perm jobs
  free : ∀ j ∈ line, j.parents ⊆ taken.map (·.name)
  waits : ∀ j ∈ rest, ¬ j.parents ⊆ taken.map (·.name)
  listed : rest.Sublist jobs
  ahead : line.Pairwise (AheadOf jobs taken)

/-- At the beginning, the jobs without parents are in line. -/
theorem linedUp_start (jobs : List Job) :
    LinedUp jobs [] (jobs.filter (·.isFreeAfter [])) (jobs.filter (!·.isFreeAfter [])) where
  perm := List.filter_append_perm _ jobs
  free := fun j hj => Job.isFreeAfter_iff.mp (List.mem_filter.mp hj).2
  waits := fun j hj => Job.not_isFreeAfter_iff.mp (List.mem_filter.mp hj).2
  listed := List.filter_sublist
  ahead := by
    refine List.pairwise_iff_forall_sublist.mpr fun {j k} hjk => ?_
    have hfree : ∀ x ∈ [j, k], x.parents ⊆ [] := fun x hx =>
      Job.isFreeAfter_iff.mp (List.mem_filter.mp (hjk.subset hx)).2
    refine .together (fun done hdone => ?_) (hjk.trans List.filter_sublist)
    simp [List.prefix_nil.mp hdone, hfree j (by simp), hfree k (by simp)]

/-- Taking the first job in line, after which those line up that it sets free. -/
theorem LinedUp.next (h : LinedUp jobs taken (j :: line) rest) :
    LinedUp jobs (taken ++ [j])
      (line ++ rest.filter (·.isFreeAfter ((taken ++ [j]).map (·.name))))
      (rest.filter (!·.isFreeAfter ((taken ++ [j]).map (·.name)))) where
  perm := by
    have hrest := List.filter_append_perm (·.isFreeAfter ((taken ++ [j]).map (·.name))) rest
    refine List.Perm.trans ?_ h.perm
    rw [List.append_assoc, List.append_assoc]
    exact ((hrest.append_left line).cons j).append_left taken
  free := by
    intro k hk
    rcases List.mem_append.mp hk with hk | hk
    · rw [List.map_append]
      exact List.subset_append_of_subset_left _ (h.free k (List.mem_cons_of_mem j hk))
    · exact Job.isFreeAfter_iff.mp (List.mem_filter.mp hk).2
  waits := fun k hk => Job.not_isFreeAfter_iff.mp (List.mem_filter.mp hk).2
  listed := List.filter_sublist.trans h.listed
  ahead := by
    refine List.pairwise_append.mpr ⟨?_, ?_, ?_⟩
    · refine (List.pairwise_cons.mp h.ahead).2.imp_of_mem fun ha hb hab => ?_
      exact hab.concat (h.free _ (List.mem_cons_of_mem j ha))
        (h.free _ (List.mem_cons_of_mem j hb)) j
    · -- those that `j` sets free became ready together
      refine List.pairwise_iff_forall_sublist.mpr fun {a b} hab => ?_
      have hmem : ∀ x ∈ [a, b], x ∈ rest ∧ x.parents ⊆ (taken ++ [j]).map (·.name) := by
        intro x hx
        obtain ⟨hrest, hfree⟩ := List.mem_filter.mp (hab.subset hx)
        exact ⟨hrest, Job.isFreeAfter_iff.mp hfree⟩
      obtain ⟨ha, hafree⟩ := hmem a (by simp)
      obtain ⟨hb, hbfree⟩ := hmem b (by simp)
      refine .together (fun done hdone => ?_)
        (hab.trans (List.filter_sublist.trans h.listed))
      rcases List.prefix_concat_iff.mp hdone with rfl | hdone
      · exact iff_of_true hafree hbfree
      · exact iff_of_false (not_free_before hdone (h.waits a ha))
          (not_free_before hdone (h.waits b hb))
    · intro a ha b hb
      exact .earlier taken (List.prefix_append taken [j]) (h.free a (List.mem_cons_of_mem j ha))
        (h.waits b (List.mem_filter.mp hb).1)

/-- The first job in line has been ready for longest. -/
theorem LinedUp.head (h : LinedUp jobs taken (j :: line) rest) (hn : jobs.Nodup) :
    Ready jobs taken j ∧ ∀ k, Ready jobs taken k → k ≠ j → AheadOf jobs taken j k := by
  have hmem : j ∈ jobs := h.perm.subset (by simp)
  have hleft : j ∉ taken := fun hj =>
    (List.nodup_append.mp (h.perm.nodup_iff.mpr hn)).2.2 j hj j (by simp) rfl
  refine ⟨⟨hmem, hleft, h.free j List.mem_cons_self⟩, fun k hk hne => ?_⟩
  have hline : k ∈ line := by
    have := h.perm.symm.subset hk.listed
    simp only [List.mem_append, List.mem_cons, hk.left, hne, false_or] at this
    exact this.resolve_right fun hrest => h.waits k hrest hk.free
  exact (List.pairwise_cons.mp h.ahead).1 k hline

/-- Whenever a job is taken, the jobs are lined up behind it. -/
theorem LinedUp.takeFree (h : LinedUp jobs taken line rest) {before after : List Job}
    (hsplit : (takeFree line (rest.map (WaitingJob.beyond (taken.map (·.name))))).1 =
      before ++ j :: after) :
    ∃ line' rest', LinedUp jobs (taken ++ before) (j :: line') rest' := by
  induction hw : line.length + rest.length using Nat.strong_induction_on
    generalizing taken line rest before with
  | _ n ih =>
    cases line with
    | nil => simp [JobGraph.takeFree] at hsplit
    | cons first line =>
      rw [JobGraph.takeFree, WaitingJob.freedBy_map_beyond, WaitingJob.keptBy_map_beyond] at hsplit
      cases before with
      | nil =>
        obtain ⟨rfl, -⟩ := List.cons.inj hsplit
        exact ⟨line, rest, by simpa using h⟩
      | cons b before =>
        obtain ⟨rfl, hsplit⟩ := List.cons.inj hsplit
        have hnext := h.next
        have hlength := hnext.perm.length_eq.trans h.perm.length_eq.symm
        simp only [List.map_append, List.map_cons, List.map_nil] at hnext hlength
        obtain ⟨line', rest', h'⟩ := ih _ (by
          simp only [List.length_append, List.length_cons, List.length_nil] at hlength hw ⊢
          omega) hnext (by simpa using hsplit) rfl
        exact ⟨line', rest', by simpa using h'⟩

/-- The jobs of a graph are taken in the order in which they become ready. -/
theorem order_takesLongestReady (g : JobGraph) (hn : g.jobs.Nodup) :
    TakesLongestReady g.jobs g.order := by
  intro before j after horder
  have harranged := congrArg Prod.fst g.arranged
  rw [arrange_eq_takeFree] at harranged
  obtain ⟨line, rest, h⟩ := (linedUp_start g.jobs).takeFree (harranged.trans horder)
  exact h.head hn

/-! ## One order -/

/-- In a list without repetitions, at most one of two jobs stands before the other. -/
theorem ListedBefore.asymm (hn : jobs.Nodup) (h : ListedBefore jobs j k) :
    ¬ ListedBefore jobs k j := by
  induction jobs with
  | nil => cases h
  | cons x rest ih =>
    obtain ⟨hx, hrest⟩ := List.nodup_cons.mp hn
    intro h'
    cases h with
    | cons _ h =>
      cases h' with
      | cons _ h' => exact ih hrest h h'
      | cons_cons _ _ => exact hx (h.subset (by simp))
    | cons_cons _ hk =>
      cases h' with
      | cons _ h' => exact hx (h'.subset (by simp))
      | cons_cons _ _ => exact hx (hk.subset (by simp))

/-- Of two ready jobs, at most one is ahead of the other. -/
theorem AheadOf.asymm (hn : jobs.Nodup) (h : AheadOf jobs taken j k) :
    ¬ AheadOf jobs taken k j := by
  intro h'
  cases h with
  | earlier done hdone hj hk =>
    cases h' with
    | earlier done' hdone' hk' hj' =>
      rcases List.prefix_or_prefix_of_prefix hdone hdone' with hle | hle
      · exact not_free_before hle hj' hj
      · exact not_free_before hle hk hk'
    | together hsame => exact hk ((hsame done hdone).mpr hj)
  | together hsame hlisted =>
    cases h' with
    | earlier done hdone hk hj => exact hj ((hsame done hdone).mpr hk)
    | together _ hlisted' => exact hlisted.asymm hn hlisted'

/-- Orders that begin with the same jobs go on with the same. -/
theorem TakesLongestReady.unique_after {before order order' : List Job} (hn : jobs.Nodup)
    (h : TakesLongestReady jobs (before ++ order))
    (h' : TakesLongestReady jobs (before ++ order')) (hlength : order.length = order'.length) :
    order = order' := by
  induction order generalizing before order' with
  | nil => exact (List.length_eq_zero_iff.mp hlength.symm).symm
  | cons j order ih =>
    cases order' with
    | nil => simp at hlength
    | cons k order' =>
      obtain ⟨hj, hjahead⟩ := h before j order rfl
      obtain ⟨hk, hkahead⟩ := h' before k order' rfl
      have heq : j = k := by
        by_contra hne
        exact (hjahead k hk (Ne.symm hne)).asymm hn (hkahead j hj hne)
      subst heq
      rw [List.append_cons] at h h'
      rw [ih h h' (by simpa using hlength)]

theorem TakesLongestReady.unique {order order' : List Job} (h : TakesLongestReady jobs order)
    (hn : jobs.Nodup) (h' : TakesLongestReady jobs order')
    (hlength : order.length = order'.length) : order = order' := by
  rw [← List.nil_append order] at h
  rw [← List.nil_append order'] at h'
  exact h.unique_after hn h' hlength

/-! ## Graphs -/

/-- Both ways to ask a graph for the order of submission give the one that takes, of the jobs that
are ready, the one that has been so for longest, and of those that became so together the one that
is listed first. -/
theorem sorted_takesLongestReady {g : JobGraph} (hg : ofJobs jobs = .ok g) :
    ∃ order, g.sorted = .ok order ∧ g.intoSorted = .ok order ∧ TakesLongestReady jobs order ∧
      ∀ order', order'.Perm jobs → TakesLongestReady jobs order' → order' = order := by
  obtain ⟨hsorted, hinto, hperm, -⟩ := order_of_ofJobs hg
  have hn : jobs.Nodup := (listed_of_ofJobs hg).1.of_map
  have horder : TakesLongestReady jobs g.order := by
    have := g.order_takesLongestReady
    rw [jobs_of_ofJobs hg] at this
    exact this hn
  refine ⟨g.order, hsorted, hinto, horder, fun order' hperm' h => ?_⟩
  exact h.unique hn horder (hperm'.length_eq.trans hperm.length_eq.symm)

namespace Sample

/-- A job that waits for the grid. -/
def relief : Job :=
  { name := "relief", kind := .rasterProcessing, command := [], parents := ["grid"] }

/-- A job that waits for nothing. -/
def roads : Job :=
  { name := "roads", kind := .gdalImport, command := [] }

/-- Jobs of which one is listed last, but is ready from the beginning. -/
def roadsLast : List Job :=
  [grid, relief, roads]

theorem ofJobs_roadsLast : ∃ g, ofJobs roadsLast = .ok g ∧ g.order = [grid, roads, relief] :=
  exists_ok_of_map_toOption (by decide +kernel)

end Sample

open Sample in
/-- The jobs without parents are taken before the one that waits for the first of them. -/
theorem sorted_roadsLast : ∃ g order, ofJobs roadsLast = .ok g ∧ g.sorted = .ok order ∧
    TakesLongestReady roadsLast order := by
  obtain ⟨g, hg, -⟩ := ofJobs_roadsLast
  obtain ⟨order, hsorted, -, horder, -⟩ := sorted_takesLongestReady hg
  exact ⟨g, order, hg, hsorted, horder⟩

open Sample in
/-- The first of the ready jobs in the list is not always taken: the relief is listed before the
roads and ready once the grid has been taken, but the roads were so before. -/
theorem roadsLast_not_takesFirstListed : ¬ ∀ (jobs : List Job) (g : JobGraph),
    ofJobs jobs = .ok g → ∃ order, g.sorted = .ok order ∧ TakesFirstListed jobs order := by
  intro h
  obtain ⟨g, hg, horder⟩ := ofJobs_roadsLast
  obtain ⟨order, hsorted, hfirst⟩ := h roadsLast g hg
  obtain rfl : g.order = order := Except.ok.inj ((order_of_ofJobs hg).1.symm.trans hsorted)
  have hrelief : Ready roadsLast [grid] relief := ⟨by decide, by decide, by decide⟩
  have hlisted := (hfirst [grid] roads [relief] horder).2 relief hrelief (by decide)
  exact absurd hlisted (by decide)

end JobGraph

end GeoAssets
