import GeoAssets.Proofs.Compute.Order

/-!
# The jobs that are left over

Jobs that wait for each other make no graph, and the error names those that are never free. These
are the jobs on a circle (`JobGraph.OnCircle`), but also the jobs that only wait for such jobs
(`JobGraph.BehindCircle`).
-/

namespace GeoAssets

namespace JobGraph

variable {jobs : List Job} {n : String}

/-- A job waits for itself, perhaps through others. -/
def OnCircle (jobs : List Job) (n : String) : Prop :=
  IsAncestor jobs n n

/-- A job waits for one on a circle, perhaps through others, but is on no circle itself. -/
def BehindCircle (jobs : List Job) (n : String) : Prop :=
  ¬ OnCircle jobs n ∧ ∃ m, OnCircle jobs m ∧ IsAncestor jobs m n

/-- Some names are those of the jobs on circles, in the order of the list. -/
def NamesCircles (jobs : List Job) (names : List String) : Prop :=
  names.Sublist (jobs.map (·.name)) ∧ ∀ n, n ∈ names ↔ OnCircle jobs n

/-- A job that waits in a circle is on one or behind one. -/
theorem waitsInCircle_iff : WaitsInCircle jobs n ↔ OnCircle jobs n ∨ BehindCircle jobs n := by
  constructor
  · rintro ⟨m, hm, hmn⟩
    by_cases hn : OnCircle jobs n
    · exact .inl hn
    · rcases Relation.reflTransGen_iff_eq_or_transGen.mp hmn with rfl | hmn
      · exact .inl hm
      · exact .inr ⟨hn, m, hm, hmn⟩
  · rintro (hn | ⟨-, m, hm, hmn⟩)
    · exact ⟨n, hn, .refl⟩
    · exact ⟨m, hm, hmn.to_reflTransGen⟩

/-- Jobs that wait in a circle are listed. -/
theorem WaitsInCircle.mem_names (h : WaitsInCircle jobs n) : n ∈ jobs.map (·.name) := by
  rcases waitsInCircle_iff.mp h with hn | ⟨-, m, -, hmn⟩
  · exact IsAncestor.mem_names hn
  · exact hmn.mem_names

/-- Jobs of distinct names and listed parents that wait for each other make no graph. The error
names the jobs on circles and those behind them, in the order of the list, and so it names those on
circles only if there are no others. -/
theorem ofJobs_namesStuck (hn : (jobs.map (·.name)).Nodup) (hlisted : ParentsListed jobs)
    (hcircle : ¬ Acyclic jobs) :
    ∃ stuck, ofJobs jobs = .error (.cycle stuck) ∧ stuck ≠ [] ∧
      stuck.Sublist (jobs.map (·.name)) ∧
      (∀ n, n ∈ stuck ↔ OnCircle jobs n ∨ BehindCircle jobs n) ∧
      (NamesCircles jobs stuck ↔ ∀ n, ¬ BehindCircle jobs n) := by
  obtain ⟨stuck, hsub, hmem, herror⟩ := ofJobs_of_circle hn hlisted hcircle
  have hstuck : ∀ n, n ∈ stuck ↔ OnCircle jobs n ∨ BehindCircle jobs n := by
    intro n
    rw [hmem, waitsInCircle_iff.symm]
    exact and_iff_right_of_imp WaitsInCircle.mem_names
  refine ⟨stuck, herror, ?_, hsub, hstuck, ?_⟩
  · rintro rfl
    exact hcircle fun n hn => List.not_mem_nil ((hstuck n).mpr (.inl hn))
  · constructor
    · rintro ⟨-, hcircles⟩ n hbehind
      exact hbehind.1 ((hcircles n).mp ((hstuck n).mpr (.inr hbehind)))
    · intro hnone
      refine ⟨hsub, fun n => (hstuck n).trans ?_⟩
      exact or_iff_left (hnone n)

namespace Sample

/-- A job that waits for tiles. -/
def copies : Job :=
  { name := "copies", kind := .tileCache, command := [], parents := ["tiles"] }

/-- A grid and tiles that wait for each other, and a job that waits for the tiles. -/
def copiesLast : List Job :=
  [lateGrid, tiles, copies]

theorem copiesLast_listed : (copiesLast.map (·.name)).Nodup ∧ ParentsListed copiesLast := by
  unfold ParentsListed
  decide

theorem tiles_onCircle : OnCircle copiesLast "tiles" :=
  .tail (.single ⟨lateGrid, by decide, rfl, by decide⟩) ⟨tiles, by decide, rfl, by decide⟩

theorem copiesLast_not_acyclic : ¬ Acyclic copiesLast :=
  fun h => h "tiles" tiles_onCircle

/-- The copies wait for the tiles. -/
theorem copies_waitsInCircle : WaitsInCircle copiesLast "copies" :=
  ⟨"tiles", tiles_onCircle, .single ⟨copies, by decide, rfl, by decide⟩⟩

/-- No job waits for the copies. -/
theorem copies_not_onCircle : ¬ OnCircle copiesLast "copies" := by
  intro h
  obtain ⟨m, ⟨j, hj, -, hmem⟩, -⟩ := Relation.TransGen.head'_iff.mp h
  have hnone : ∀ j ∈ copiesLast, "copies" ∉ j.parents := by decide
  exact hnone j hj hmem

end Sample

open Sample in
/-- The copies are named with the jobs that they wait for. -/
theorem ofJobs_copiesLast : ∃ stuck, ofJobs copiesLast = .error (.cycle stuck) ∧
    "copies" ∈ stuck := by
  obtain ⟨stuck, herror, -, -, hmem, -⟩ :=
    ofJobs_namesStuck copiesLast_listed.1 copiesLast_listed.2 copiesLast_not_acyclic
  exact ⟨stuck, herror, (hmem "copies").mpr (waitsInCircle_iff.mp copies_waitsInCircle)⟩

open Sample in
/-- The error does not always name the jobs on circles only: the copies are on none. -/
theorem copiesLast_not_namesCircles : ¬ ∀ jobs : List Job, (jobs.map (·.name)).Nodup →
    ParentsListed jobs → ¬ Acyclic jobs →
      ∃ stuck, ofJobs jobs = .error (.cycle stuck) ∧ NamesCircles jobs stuck := by
  intro h
  obtain ⟨hn, hlisted⟩ := copiesLast_listed
  obtain ⟨names, hnames, -, hcircles⟩ := h copiesLast hn hlisted copiesLast_not_acyclic
  obtain ⟨stuck, -, hmem, hstuck⟩ := ofJobs_of_circle hn hlisted copiesLast_not_acyclic
  obtain rfl : names = stuck := by simpa using hnames.symm.trans hstuck
  have hcopies := (hmem "copies").mpr ⟨by decide, copies_waitsInCircle⟩
  exact copies_not_onCircle ((hcircles "copies").mp hcopies)

end JobGraph

end GeoAssets
