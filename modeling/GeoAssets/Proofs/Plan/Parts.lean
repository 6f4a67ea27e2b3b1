import GeoAssets.Proofs.Compute.Links
import GeoAssets.Proofs.Plan.Queue

/-!
# The parts of a plan

Every plan that loads a table has the same parts, and the parts wait for each other in the same way
(`Parts.Wired`). So a plan is a graph if the names of its jobs are distinct, its jobs are submitted
part by part (`Follows`), and only the jobs that wait for the indices can have too many parents.
-/

namespace GeoAssets.Plan

open JobGraph

/-! ## Templates -/

/-- The names of the jobs that load a table, part by part. -/
structure Template where
  create : String
  loads : List String
  enrich : String
  indices : List String
  clusters : List String
  /-- The job that waits for all others, if there is one. -/
  closing : Option String
  deriving DecidableEq, Repr

/-- All names in the order of submission. -/
def Template.names (t : Template) : List String :=
  [t.create] ++ t.loads ++ [t.enrich] ++ t.indices ++ t.clusters ++ t.closing.toList

/-- No job of a template waits for more indices than it may: neither the jobs that cluster the
table, nor the last one, which waits for these, too. -/
def Template.FansIn (limit : Nat) (t : Template) : Prop :=
  (t.clusters ≠ [] → t.indices.length ≤ limit) ∧
    (t.closing.isSome → t.indices.length + t.clusters.length ≤ limit)

/-- A graph has the jobs of a template in its order, and they wait for each other as its parts
demand. -/
structure Follows (g : JobGraph) (t : Template) : Prop where
  order : names g.order = t.names
  roots : g.roots = [t.create]
  create : ∀ n ∈ t.names, n ≠ t.create → IsAncestor g.jobs t.create n
  loads : ∀ n ∈ t.loads, IsAncestor g.jobs n t.enrich
  indices : ∀ n ∈ t.indices, IsParent g.jobs t.enrich n
  clusters : ∀ c ∈ t.clusters, ∀ n ∈ if t.indices = [] then [t.enrich] else t.indices,
    IsParent g.jobs n c
  closing : ∀ c ∈ t.closing, ∀ n ∈ t.names, n ≠ c → IsAncestor g.jobs n c

/-! ## Parts -/

/-- The jobs that load a table, part by part. -/
structure Parts where
  create : Job
  loads : List Job
  enrich : Job
  indices : List Job
  clusters : List Job
  /-- The job that waits for all others, if there is one. -/
  closing : Option Job

namespace Parts

/-- All jobs but the first in order. -/
def later (p : Parts) : List Job :=
  p.loads ++ [p.enrich] ++ p.indices ++ p.clusters ++ p.closing.toList

/-- All jobs in order. -/
def jobs (p : Parts) : List Job :=
  p.create :: p.later

/-- The names of the parts. -/
def template (p : Parts) : Template where
  create := p.create.name
  loads := names p.loads
  enrich := p.enrich.name
  indices := names p.indices
  clusters := names p.clusters
  closing := p.closing.map (·.name)

theorem names_jobs (p : Parts) : names p.jobs = p.template.names := by
  cases h : p.closing <;> simp [jobs, later, Template.names, template, h]

/-- The parts wait for each other. -/
structure Wired (p : Parts) (queues : Nat) : Prop where
  create : p.create.parents = []
  loads : Queued p.create.name queues p.loads p.enrich.parents
  indices : ∀ j ∈ p.indices, j.parents = [p.enrich.name]
  clusters : ∀ j ∈ p.clusters, j.parents = namesOr p.enrich.name p.indices
  closing : ∀ j ∈ p.closing, j.parents = namesOr p.enrich.name (p.indices ++ p.clusters)

end Parts

/-! ## What stands at the end -/

theorem namesOr_subset {fallback : Job} {jobs all : List Job} (hfallback : fallback ∈ all)
    (hjobs : jobs ⊆ all) : namesOr fallback.name jobs ⊆ names all := by
  unfold namesOr
  split
  · exact List.cons_subset.mpr ⟨List.mem_map_of_mem hfallback, List.nil_subset _⟩
  · exact List.map_subset _ hjobs

theorem mem_namesOr_of_mem {fallback : String} {jobs : List Job} {j : Job} (hj : j ∈ jobs) :
    j.name ∈ namesOr fallback jobs := by
  have hne : jobs.isEmpty = false := List.isEmpty_eq_false_iff.mpr (List.ne_nil_of_mem hj)
  rw [namesOr, hne]
  exact List.mem_map_of_mem hj

/-- The last job behind a job is waited for by what waits for those behind it, or for it. -/
theorem last_mem_namesOr (before after : List Job) {j l : Job}
    (hl : l ∈ (before ++ [j] ++ after).getLast?) : l.name ∈ namesOr j.name after := by
  rcases List.eq_nil_or_concat after with rfl | ⟨init, last, rfl⟩
  · obtain rfl : j = l := by simpa using hl
    exact List.mem_cons_self
  · obtain rfl : last = l := by simpa [← List.append_assoc] using hl
    exact mem_namesOr_of_mem (by simp)

theorem namesOr_ne_nil (fallback : String) (jobs : List Job) : namesOr fallback jobs ≠ [] := by
  cases jobs <;> simp [namesOr]

theorem length_namesOr_le_iff (fallback : String) (jobs : List Job) {limit : Nat}
    (h : 1 ≤ limit) : (namesOr fallback jobs).length ≤ limit ↔ jobs.length ≤ limit := by
  cases jobs <;> simp [namesOr, h]

/-! ## Plans of wired parts -/

namespace Parts.Wired

variable {p : Parts} {queues : Nat}

/-- The jobs are in the order of submission, if their names are distinct. -/
theorem steady (hw : p.Wired queues) (hn : (names p.jobs).Nodup) : Steady p.jobs := by
  have hnodup : ∀ before, before <+: p.jobs → (names before).Nodup := fun before h =>
    hn.sublist (h.map _).sublist
  have hloads : [p.create] ++ p.loads <+: p.jobs := by
    simp [jobs, later]
  have henrich : [p.create] ++ p.loads ++ [p.enrich] <+: p.jobs := by
    simp [jobs, later]
  have hindices : [p.create] ++ p.loads ++ [p.enrich] ++ p.indices <+: p.jobs := by
    simp [jobs, later]
  have hclusters : [p.create] ++ p.loads ++ [p.enrich] ++ p.indices ++ p.clusters <+: p.jobs := by
    simp [jobs, later]
  -- the parts are put behind each other; the last job before a part is one that it waits for
  have hs : Steady ([p.create] ++ p.loads) := hw.loads.steady rfl hw.create (hnodup _ hloads)
  have hs : Steady ([p.create] ++ p.loads ++ [p.enrich]) := by
    refine hs.block (hnodup _ hloads) ?_ ?_ fun j hj => congrArg _ (List.mem_singleton.mp hj)
    · exact List.Subset.trans hw.loads.tails_subset
        (List.map_subset _ (List.subset_append_right _ _))
    · intro l hl
      refine hw.loads.mem_tails_of_mem_getLast? ?_
      rwa [List.getLast?_append_of_ne_nil _ hw.loads.ne_nil] at hl
  have hs : Steady ([p.create] ++ p.loads ++ [p.enrich] ++ p.indices) := by
    refine hs.block (hnodup _ henrich) ?_ ?_ hw.indices
    · exact namesOr_subset (by simp) (List.nil_subset _)
    · exact fun l hl => last_mem_namesOr ([p.create] ++ p.loads) [] (by rwa [List.append_nil])
  have hs : Steady ([p.create] ++ p.loads ++ [p.enrich] ++ p.indices ++ p.clusters) := by
    refine hs.block (hnodup _ hindices) ?_ (fun l hl => last_mem_namesOr _ _ hl) hw.clusters
    exact namesOr_subset (by simp) (List.subset_append_right _ _)
  rw [List.append_assoc _ p.indices] at hs hclusters
  have hsub : p.indices ++ p.clusters ⊆
      [p.create] ++ p.loads ++ [p.enrich] ++ (p.indices ++ p.clusters) :=
    List.subset_append_right _ _
  have hall := hs.block (hnodup _ hclusters) (namesOr_subset (by simp) hsub)
    (fun l hl => last_mem_namesOr _ _ hl) fun j hj => hw.closing j (Option.mem_toList.mp hj)
  rwa [← List.append_assoc] at hall

/-- Wired parts are a graph of which the jobs are submitted part by part, if their names are
distinct. -/
theorem exists_graph (hw : p.Wired queues) (hn : (names p.jobs).Nodup) :
    ∃ g, JobGraph.ofJobs p.jobs = .ok g ∧ g.jobs = p.jobs ∧ g.order = p.jobs :=
  ⟨_, (hw.steady hn).ofJobs hn, rfl, rfl⟩

/-- Only the jobs that wait for the indices can have more parents than there are queues. -/
theorem fanIn_iff (hw : p.Wired queues) {limit : Nat} (hlimit : queues ≤ limit) :
    (∀ j ∈ p.jobs, j.parents.length ≤ limit) ↔ p.template.FansIn limit := by
  have hone : 1 ≤ limit := Nat.le_trans hw.loads.pos hlimit
  have hfits := fun fallback jobs => length_namesOr_le_iff fallback jobs hone
  have hclosing : (∀ j ∈ p.closing, j.parents.length ≤ limit) ↔
      (p.closing.isSome → p.indices.length + p.clusters.length ≤ limit) := by
    cases h : p.closing with
    | none => simp
    | some j => simp [hw.closing j h, hfits]
  have hclusters : (∀ j ∈ p.clusters, j.parents.length ≤ limit) ↔
      (p.clusters ≠ [] → p.indices.length ≤ limit) := by
    constructor
    · intro h hne
      obtain ⟨j, hj⟩ := List.exists_mem_of_ne_nil _ hne
      have hlength := h j hj
      rwa [hw.clusters j hj, hfits] at hlength
    · intro h j hj
      rw [hw.clusters j hj, hfits]
      exact h (List.ne_nil_of_mem hj)
  have hcreate : p.create.parents.length ≤ limit := by simp [hw.create]
  have hloads : ∀ j ∈ p.loads, j.parents.length ≤ limit := by
    intro j hj
    obtain ⟨i, hi⟩ := List.mem_iff_getElem?.mp hj
    obtain ⟨parent, _, hparents⟩ := hw.loads.parents i j hi
    exact hparents ▸ hone
  have henrich : p.enrich.parents.length ≤ limit := hw.loads.length_tails ▸ hlimit
  have hindices : ∀ j ∈ p.indices, j.parents.length ≤ limit := fun j hj =>
    hw.indices j hj ▸ hone
  have htemplate : p.template.FansIn limit ↔ (∀ j ∈ p.clusters, j.parents.length ≤ limit) ∧
      ∀ j ∈ p.closing, j.parents.length ≤ limit := by
    rw [hclusters, hclosing]
    simp [Template.FansIn, template, names]
  rw [htemplate, jobs, List.forall_mem_cons, later]
  simp only [List.forall_mem_append, List.forall_mem_singleton, Option.mem_toList]
  constructor
  · rintro ⟨_, ⟨_, h⟩, h'⟩
    exact ⟨h, h'⟩
  · rintro ⟨h, h'⟩
    exact ⟨hcreate, ⟨⟨⟨hloads, henrich⟩, hindices⟩, h⟩, h'⟩

/-! ## Ancestors -/

/-- Only the first job waits for nothing. -/
theorem parents_ne_nil (hw : p.Wired queues) {j : Job} (hj : j ∈ p.later) : j.parents ≠ [] := by
  simp only [later, List.mem_append, List.mem_singleton, Option.mem_toList] at hj
  rcases hj with (((hj | rfl) | hj) | hj) | hj
  · obtain ⟨i, hi⟩ := List.mem_iff_getElem?.mp hj
    obtain ⟨parent, _, hparents⟩ := hw.loads.parents i j hi
    simp [hparents]
  · refine List.ne_nil_of_length_pos ?_
    rw [hw.loads.length_tails]
    exact hw.loads.pos
  · simp [hw.indices j hj]
  · rw [hw.clusters j hj]
    exact namesOr_ne_nil _ _
  · rw [hw.closing j hj]
    exact namesOr_ne_nil _ _

theorem load_isAncestor (hw : p.Wired queues) {j : Job} (hj : j ∈ p.loads) :
    IsAncestor p.jobs j.name p.enrich.name := by
  obtain ⟨i, hi⟩ := List.mem_iff_getElem?.mp hj
  have hall : p.loads ⊆ p.jobs := by
    simp [jobs, later]
  exact hw.loads.isAncestor hall (by simp [jobs, later]) (List.Subset.refl _) hi

theorem index_isParent (hw : p.Wired queues) {j : Job} (hj : j ∈ p.indices) :
    IsParent p.jobs p.enrich.name j.name :=
  ⟨j, by simp [jobs, later, hj], rfl, by simp [hw.indices j hj]⟩

theorem cluster_isParent (hw : p.Wired queues) {j : Job} (hj : j ∈ p.clusters) {n : String}
    (hparent : n ∈ namesOr p.enrich.name p.indices) : IsParent p.jobs n j.name :=
  ⟨j, by simp [jobs, later, hj], rfl, by rwa [hw.clusters j hj]⟩

theorem closing_isParent (hw : p.Wired queues) {j : Job} (hj : j ∈ p.closing) {n : String}
    (hparent : n ∈ namesOr p.enrich.name (p.indices ++ p.clusters)) : IsParent p.jobs n j.name :=
  ⟨j, by simp [jobs, later, Option.mem_def.mp hj], rfl, by rwa [hw.closing j hj]⟩

/-- What waits for jobs, or for one job before them if there are none, waits for that job. -/
theorem isAncestor_of_namesOr {all jobs : List Job} {first next : String}
    (hjobs : ∀ j ∈ jobs, IsAncestor all first j.name)
    (hnext : ∀ n ∈ namesOr first jobs, IsAncestor all n next) : IsAncestor all first next := by
  cases jobs with
  | nil => exact hnext first List.mem_cons_self
  | cons j jobs =>
    exact (hjobs j List.mem_cons_self).trans (hnext j.name (mem_namesOr_of_mem List.mem_cons_self))

theorem enrich_isAncestor (hw : p.Wired queues) {j : Job} (hj : j ∈ p.indices ++ p.clusters) :
    IsAncestor p.jobs p.enrich.name j.name := by
  have hindices : ∀ i ∈ p.indices, IsAncestor p.jobs p.enrich.name i.name := fun i hi =>
    (hw.index_isParent hi).isAncestor
  rcases List.mem_append.mp hj with hj | hj
  · exact hindices j hj
  · exact isAncestor_of_namesOr hindices fun n hn => (hw.cluster_isParent hj hn).isAncestor

/-- The last job waits for all others. -/
theorem isAncestor_closing (hw : p.Wired queues) (hn : (names p.jobs).Nodup) {c : Job}
    (hc : c ∈ p.closing) {j : Job} (hj : j ∈ p.jobs) (hne : j.name ≠ c.name) :
    IsAncestor p.jobs j.name c.name := by
  have henrich : IsAncestor p.jobs p.enrich.name c.name :=
    isAncestor_of_namesOr (fun _ hj => hw.enrich_isAncestor hj) fun _ hn =>
      (hw.closing_isParent hc hn).isAncestor
  have hlate : ∀ i ∈ p.indices ++ p.clusters, IsAncestor p.jobs i.name c.name := fun i hi =>
    (hw.closing_isParent hc (mem_namesOr_of_mem hi)).isAncestor
  simp only [jobs, later, List.mem_cons, List.mem_append, List.not_mem_nil, or_false,
    Option.mem_toList] at hj
  rcases hj with rfl | (((hj | rfl) | hj) | hj) | hj
  · have hcreate : IsAncestor p.jobs p.create.name p.enrich.name :=
      (hw.steady hn).first_isAncestor (fun _ => hw.parents_ne_nil) (by simp [later])
    exact hcreate.trans henrich
  · exact (hw.load_isAncestor hj).trans henrich
  · exact henrich
  · exact hlate j (List.mem_append_left _ hj)
  · exact hlate j (List.mem_append_right _ hj)
  · exact absurd (congrArg (·.name) (Option.mem_unique hj hc)) hne

/-- A graph of wired parts, submitted part by part, follows their template. -/
theorem follows (hw : p.Wired queues) (hn : (names p.jobs).Nodup) {g : JobGraph}
    (hjobs : g.jobs = p.jobs) (horder : g.order = p.jobs) : Follows g p.template where
  order := by rw [horder, names_jobs]
  roots := by
    have hlater : p.later.filter (·.parents.isEmpty) = [] :=
      List.filter_eq_nil_iff.mpr fun j hj => by simpa using hw.parents_ne_nil hj
    rw [roots_eq, hjobs, jobs, List.filter_cons_of_pos (by simp [hw.create]), hlater]
    rfl
  create := by
    intro n hmem hne
    rw [← names_jobs] at hmem
    obtain ⟨j, hj, rfl⟩ := List.mem_map.mp hmem
    rw [hjobs]
    refine (hw.steady hn).first_isAncestor (fun _ => hw.parents_ne_nil) ?_
    exact (List.mem_cons.mp hj).resolve_left fun h => hne (congrArg (·.name) h)
  loads := by
    intro n hmem
    obtain ⟨j, hj, rfl⟩ := List.mem_map.mp hmem
    exact hjobs ▸ hw.load_isAncestor hj
  indices := by
    intro n hmem
    obtain ⟨j, hj, rfl⟩ := List.mem_map.mp hmem
    exact hjobs ▸ hw.index_isParent hj
  clusters := by
    intro c hc n hparent
    obtain ⟨j, hj, rfl⟩ := List.mem_map.mp hc
    refine hjobs ▸ hw.cluster_isParent hj ?_
    simpa [namesOr, template, names] using hparent
  closing := by
    intro c hc n hmem hne
    obtain ⟨k, hk, rfl⟩ := Option.map_eq_some_iff.mp hc
    rw [← names_jobs] at hmem
    obtain ⟨j, hj, rfl⟩ := List.mem_map.mp hmem
    exact hjobs ▸ hw.isAncestor_closing hn hk hj hne

end Parts.Wired

end GeoAssets.Plan
