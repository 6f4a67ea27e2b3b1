import GeoAssets.Proofs.Compute.Order
import GeoAssets.Proofs.Directory
import Mathlib.Algebra.Ring.Nat
import Mathlib.Data.List.Sort

/-!
# Links between jobs

The jobs next to a job are found through the places of jobs and the links between them. For the jobs
of a graph this comes to the same as a look at their parents (`JobGraph.ReadsParents`): parents and
children are told in the order of the list, each once, although a parent that is named twice is
linked twice and counted twice.
-/

namespace GeoAssets

/-! ## Ascending numbers -/

theorem mem_skipRepeats {n : Nat} {ns : List Nat} : n ∈ skipRepeats ns ↔ n ∈ ns := by
  fun_induction skipRepeats ns with
  | case1 m rest ih => simp [ih]
  | case2 m n' rest _ ih => rw [List.mem_cons, ih, ← List.mem_cons]
  | case3 => rfl

theorem skipRepeats_pairwise {ns : List Nat} (h : ns.Pairwise (· ≤ ·)) :
    (skipRepeats ns).Pairwise (· < ·) := by
  fun_induction skipRepeats ns with
  | case1 m rest ih => exact ih (List.pairwise_cons.mp h).2
  | case2 m n rest hne ih =>
    obtain ⟨hm, hrest⟩ := List.pairwise_cons.mp h
    have hmn : m < n := Nat.lt_of_le_of_ne (hm n List.mem_cons_self) hne
    refine List.pairwise_cons.mpr ⟨fun k hk => ?_, ih hrest⟩
    rcases List.mem_cons.mp (mem_skipRepeats.mp hk) with rfl | hk
    · exact hmn
    · exact Nat.lt_of_lt_of_le hmn ((List.pairwise_cons.mp hrest).1 k hk)
  | case3 ns hshort =>
    match ns with
    | [] => exact .nil
    | [m] => exact List.pairwise_singleton _ m
    | m :: n :: rest => exact (hshort m n rest rfl).elim

theorem mem_ascending {n : Nat} {ns : List Nat} : n ∈ ascending ns ↔ n ∈ ns := by
  rw [ascending, mem_skipRepeats, List.mem_mergeSort]

theorem ascending_pairwise (ns : List Nat) : (ascending ns).Pairwise (· < ·) := by
  refine skipRepeats_pairwise ?_
  have hsorted : (ns.mergeSort (· ≤ ·)).Pairwise fun m n => decide (m ≤ n) = true :=
    List.pairwise_mergeSort (fun _ _ _ => by simpa using Nat.le_trans)
      (fun m n => by simpa using Nat.le_total m n) ns
  exact hsorted.imp of_decide_eq_true

/-- Numbers below a bound are told in the order in which one counts. -/
theorem ascending_eq_filter {ns : List Nat} {bound : Nat} (h : ∀ n ∈ ns, n < bound) :
    ascending ns = (List.range bound).filter (· ∈ ns) := by
  refine (ascending_pairwise ns).eq_of_mem_iff (List.pairwise_lt_range.filter _) fun n => ?_
  rw [mem_ascending, List.mem_filter, List.mem_range, decide_eq_true_iff]
  exact ⟨fun hn => ⟨h n hn, hn⟩, fun hn => hn.2⟩

/-- Going through some places of a list is going through some of its elements. -/
theorem filterMap_range {α β : Type} {p : Nat → Bool} {q : α → Bool} {f : α → β} {l : List α}
    (h : ∀ i x, l[i]? = some x → p i = q x) :
    ((List.range l.length).filter p).filterMap (fun i => l[i]?.map f) = (l.filter q).map f := by
  induction l using List.reverseRecOn with
  | nil => rfl
  | append_singleton l x ih =>
    have hlast : p l.length = q x := h l.length x (by simp)
    have hinit : ((List.range l.length).filter p).filterMap (fun i => (l ++ [x])[i]?.map f) =
        (l.filter q).map f := by
      rw [← ih fun i y hy => h i y (by
        rw [List.getElem?_append_left (List.getElem?_eq_some_iff.mp hy).1, hy])]
      refine List.filterMap_congr fun i hi => ?_
      rw [List.getElem?_append_left (List.mem_range.mp (List.mem_filter.mp hi).1)]
    rw [List.length_append, List.length_singleton, List.range_succ, List.filter_append,
      List.filterMap_append, hinit, List.filter_append, List.map_append]
    cases hq : q x <;> simp [hlast, hq]

namespace LinkTable

variable {jobs : List Job}

/-! ## Places -/

theorem get?_filePlaces_of_notMem {n : String} (places : Directory String Nat) (i : Nat)
    (h : n ∉ jobs.map (·.name)) : (filePlaces places i jobs).get? n = places.get? n := by
  induction jobs generalizing places i with
  | nil => rfl
  | cons j rest ih =>
    obtain ⟨hj, hrest⟩ := not_or.mp (mt List.mem_cons.mpr h)
    rw [filePlaces, ih _ _ hrest, Directory.get?_insert, if_neg (Ne.symm hj)]

/-- A listed name is filed with a place at which it stands. -/
theorem get?_filePlaces_of_mem {n : String} (places : Directory String Nat) (i : Nat)
    (h : n ∈ jobs.map (·.name)) : ∃ k, (jobs.map (·.name))[k]? = some n ∧
      (filePlaces places i jobs).get? n = some (i + k) := by
  induction jobs generalizing places i with
  | nil => cases h
  | cons j rest ih =>
    by_cases hrest : n ∈ rest.map (·.name)
    · obtain ⟨k, hk, hplace⟩ := ih (places.insert j.name i) (i + 1) hrest
      refine ⟨k + 1, hk, ?_⟩
      rw [filePlaces, hplace, Nat.add_right_comm, Nat.add_assoc]
    · obtain rfl : n = j.name := (List.mem_cons.mp h).resolve_right hrest
      refine ⟨0, rfl, ?_⟩
      rw [filePlaces, get?_filePlaces_of_notMem _ _ hrest, Directory.get?_insert_self,
        Nat.add_zero]

theorem place_eq_none {n : String} (h : n ∉ jobs.map (·.name)) :
    (ofJobs jobs).places.get? n = none :=
  get?_filePlaces_of_notMem {} 0 h

theorem exists_place {n : String} (h : n ∈ jobs.map (·.name)) :
    ∃ k, (jobs.map (·.name))[k]? = some n ∧ (ofJobs jobs).places.get? n = some k := by
  obtain ⟨k, hk, hplace⟩ := get?_filePlaces_of_mem {} 0 h
  exact ⟨k, hk, hplace.trans (congrArg some (Nat.zero_add k))⟩

/-- Under a name of its own, a job is filed with the place at which it stands. -/
theorem place_eq_some_iff (hn : (jobs.map (·.name)).Nodup) {n : String} {k : Nat} :
    (ofJobs jobs).places.get? n = some k ↔ (jobs.map (·.name))[k]? = some n := by
  by_cases h : n ∈ jobs.map (·.name)
  · obtain ⟨i, hi, hplace⟩ := exists_place h
    rw [hplace, Option.some.injEq]
    constructor
    · rintro rfl
      exact hi
    · exact fun hk =>
        (List.getElem?_inj (List.getElem?_eq_some_iff.mp hi).1 hn).mp (hi.trans hk.symm)
  · rw [place_eq_none h]
    exact ⟨nofun, fun hk => absurd (List.mem_of_getElem? hk) h⟩

/-! ## Links -/

theorem le_child_of_mem {places : Directory String Nat} {i : Nat} {l : Link}
    (h : l ∈ linksFrom places i jobs) : i ≤ l.child := by
  induction jobs generalizing i with
  | nil => cases h
  | cons j rest ih =>
    rcases List.mem_append.mp h with h | h
    · obtain ⟨p, _, rfl⟩ := List.mem_map.mp h
      exact Nat.le_refl i
    · exact Nat.le_of_succ_le (ih h)

/-- The links to a place come from the parents of the job that stands there. -/
theorem parents_linksFrom (places : Directory String Nat) (jobs : List Job) (i k : Nat) :
    ((linksFrom places i jobs).filter (·.child == i + k)).map (·.parent) =
      (jobs[k]?.map (parentPlaces places)).getD [] := by
  induction jobs generalizing i k with
  | nil => rfl
  | cons j rest ih =>
    rw [linksFrom, List.filter_append, List.map_append]
    cases k with
    | zero =>
      have hrest : (linksFrom places (i + 1) rest).filter (·.child == i + 0) = [] :=
        List.filter_eq_nil_iff.mpr fun l hl => by
          have hle := le_child_of_mem hl
          simp only [Nat.add_zero, beq_iff_eq]
          omega
      rw [hrest, List.filter_map, List.filter_eq_self.mpr (by simp), List.map_map]
      simp [Function.comp_def]
    | succ k =>
      have hfirst : ((parentPlaces places j).map (⟨·, i⟩ : Nat → Link)).filter
          (·.child == i + (k + 1)) = [] := by
        rw [List.filter_map, List.filter_eq_nil_iff.mpr (by simp), List.map_nil]
      rw [hfirst, List.map_nil, List.nil_append, List.getElem?_cons_succ, ← ih (i + 1) k,
        Nat.add_right_comm, Nat.add_assoc]

theorem parentsAt_ofJobs (jobs : List Job) (k : Nat) : (ofJobs jobs).parentsAt k =
    (jobs[k]?.map (parentPlaces (ofJobs jobs).places)).getD [] := by
  have h := parents_linksFrom (ofJobs jobs).places jobs 0 k
  rw [Nat.zero_add] at h
  exact h

/-- A link leads from one place to another, whichever of them one looks at. -/
theorem mem_childrenAt_iff {t : LinkTable} {i k : Nat} :
    k ∈ t.childrenAt i ↔ i ∈ t.parentsAt k := by
  simp only [childrenAt, parentsAt, List.mem_map, List.mem_filter, beq_iff_eq]
  constructor
  · rintro ⟨l, ⟨hl, rfl⟩, rfl⟩
    exact ⟨l, ⟨hl, rfl⟩, rfl⟩
  · rintro ⟨l, ⟨hl, rfl⟩, rfl⟩
    exact ⟨l, ⟨hl, rfl⟩, rfl⟩

/-- A link leads to a place from those of the parents of the job that stands there. -/
theorem mem_parentsAt_iff (hn : (jobs.map (·.name)).Nodup) {i k : Nat} :
    i ∈ (ofJobs jobs).parentsAt k ↔
      ∃ p c, jobs[i]? = some p ∧ jobs[k]? = some c ∧ p.name ∈ c.parents := by
  rw [parentsAt_ofJobs]
  cases hk : jobs[k]? with
  | none => simp
  | some c =>
    simp only [Option.map_some, Option.getD_some, parentPlaces, List.mem_filterMap,
      place_eq_some_iff hn, List.getElem?_map, Option.map_eq_some_iff]
    constructor
    · rintro ⟨_, hmem, p, hp, rfl⟩
      exact ⟨p, c, hp, rfl, hmem⟩
    · rintro ⟨p, c', hp, hc, hmem⟩
      cases hc
      exact ⟨_, hmem, p, hp, rfl⟩

/-- Every parent has a place, if all parents are listed. -/
theorem length_parentPlaces (h : JobGraph.ParentsListed jobs) {j : Job} (hj : j ∈ jobs) :
    (parentPlaces (ofJobs jobs).places j).length = j.parents.length := by
  refine List.filterMap_length_eq_length.mpr fun p hp => ?_
  obtain ⟨k, _, hplace⟩ := exists_place (h j hj hp)
  rw [hplace]
  rfl

theorem length_linksFrom (places : Directory String Nat) (i : Nat) (jobs : List Job) :
    (linksFrom places i jobs).length = (jobs.map fun j => (parentPlaces places j).length).sum := by
  induction jobs generalizing i with
  | nil => rfl
  | cons j rest ih =>
    rw [linksFrom, List.length_append, List.length_map, ih, List.map_cons, List.sum_cons]

end LinkTable

namespace JobGraph

variable {g : JobGraph} {jobs : List Job}

/-! ## Links of a graph -/

/-- The parents of the jobs of a graph are jobs of the graph. -/
theorem parentsListed (g : JobGraph) : ParentsListed g.jobs := by
  intro j hj
  obtain ⟨order, kept, harranged, hturn, _⟩ := arrange_beyond g.jobs
  obtain ⟨horder, -⟩ := Prod.ext_iff.mp (harranged.symm.trans g.arranged)
  obtain rfl : order = g.order := horder
  obtain ⟨before, after, h⟩ := List.append_of_mem (g.order_perm.mem_iff.mpr hj)
  refine List.Subset.trans (hturn.parentsFirst before j after h) ?_
  refine List.Subset.trans (List.map_subset _ ?_) (List.map_subset _ g.order_perm.subset)
  rw [h]
  exact List.subset_append_left _ _

/-- There are as many links to a job as it names parents. -/
theorem length_parentsAt {i : Nat} {j : Job} (hj : g.jobs[i]? = some j) :
    (g.table.parentsAt i).length = j.parents.length := by
  rw [table, LinkTable.parentsAt_ofJobs, hj]
  exact LinkTable.length_parentPlaces g.parentsListed (List.mem_of_getElem? hj)

/-- The jobs that wait for nothing are those without parents. -/
theorem roots_eq (g : JobGraph) :
    g.roots = (g.jobs.filter (·.parents.isEmpty)).map (·.name) := by
  refine filterMap_range fun i j hj => ?_
  rw [Bool.eq_iff_iff, List.isEmpty_iff_length_eq_zero, List.isEmpty_iff_length_eq_zero,
    length_parentsAt hj]

theorem edgeCount_eq (g : JobGraph) : g.edgeCount = (g.jobs.map (·.parents.length)).sum := by
  rw [edgeCount, table, LinkTable.ofJobs, LinkTable.length_linksFrom]
  exact congrArg List.sum (List.map_congr_left fun j hj =>
    LinkTable.length_parentPlaces g.parentsListed hj)

theorem foldl_max_le_iff {l : List Nat} {a limit : Nat} :
    l.foldl max a ≤ limit ↔ a ≤ limit ∧ ∀ x ∈ l, x ≤ limit := by
  induction l generalizing a with
  | nil => simp
  | cons x l ih => rw [List.foldl_cons, ih, Nat.max_le, List.forall_mem_cons, and_assoc]

/-- The fan-in is within a limit if no job has more parents. -/
theorem maxFanIn_le_iff {limit : Nat} :
    g.maxFanIn ≤ limit ↔ ∀ j ∈ g.jobs, j.parents.length ≤ limit := by
  rw [maxFanIn, foldl_max_le_iff, List.forall_mem_map, and_iff_right (Nat.zero_le limit)]
  constructor
  · intro h j hj
    obtain ⟨i, hi⟩ := List.mem_iff_getElem?.mp hj
    rw [← length_parentsAt hi]
    exact h i (List.mem_range.mpr (List.getElem?_eq_some_iff.mp hi).1)
  · intro h i hi
    have hj := List.getElem?_eq_getElem (List.mem_range.mp hi)
    rw [length_parentsAt hj]
    exact h _ (List.mem_of_getElem? hj)

/-- If there is a job, one of them has as many parents as a job has at most. -/
theorem exists_maxFanIn (h : g.jobs ≠ []) : ∃ j ∈ g.jobs, j.parents.length = g.maxFanIn := by
  by_contra hnone
  have hlt : ∀ j ∈ g.jobs, j.parents.length < g.maxFanIn := fun j hj =>
    Nat.lt_of_le_of_ne (maxFanIn_le_iff.mp (Nat.le_refl _) j hj) fun he => hnone ⟨j, hj, he⟩
  obtain ⟨j, hj⟩ := List.exists_mem_of_ne_nil _ h
  have hpos := hlt j hj
  have hle : g.maxFanIn ≤ g.maxFanIn - 1 := maxFanIn_le_iff.mpr fun j hj => by
    have := hlt j hj
    omega
  omega

/-! ## Neighbours -/

/-- The jobs on one side of a job are told in the order of the list, if it is known which they
are. -/
theorem namesNear_eq (hn : (g.jobs.map (·.name)).Nodup) {side : LinkTable → Nat → List Nat}
    {i : Nat} {j : Job} (hj : g.jobs[i]? = some j) {q : Job → Bool}
    (hside : ∀ k, k ∈ side g.table i ↔ ∃ x, g.jobs[k]? = some x ∧ q x = true) :
    g.namesNear side j.name = .ok ((g.jobs.filter q).map (·.name)) := by
  have hplace : g.table.places.get? j.name = some i :=
    (LinkTable.place_eq_some_iff hn).mpr (by rw [List.getElem?_map, hj]; rfl)
  have hbound : ∀ k ∈ side g.table i, k < g.jobs.length := fun k hk => by
    obtain ⟨x, hx, _⟩ := (hside k).mp hk
    exact (List.getElem?_eq_some_iff.mp hx).1
  unfold namesNear
  rw [hplace]
  show Except.ok (g.namesAt (ascending (side g.table i))) = _
  rw [ascending_eq_filter hbound]
  refine congrArg Except.ok (filterMap_range fun k x hx => ?_)
  rw [Bool.eq_iff_iff, decide_eq_true_iff, hside, hx]
  simp

theorem parentsOf_eq (hn : (g.jobs.map (·.name)).Nodup) {j : Job} (hj : j ∈ g.jobs) :
    g.parentsOf j.name = .ok ((g.jobs.filter (j.parents.contains ·.name)).map (·.name)) := by
  obtain ⟨i, hi⟩ := List.mem_iff_getElem?.mp hj
  refine namesNear_eq hn hi fun k => ?_
  rw [table, LinkTable.mem_parentsAt_iff hn, hi]
  simp

theorem childrenOf_eq (hn : (g.jobs.map (·.name)).Nodup) {j : Job} (hj : j ∈ g.jobs) :
    g.childrenOf j.name = .ok ((g.jobs.filter (·.parents.contains j.name)).map (·.name)) := by
  obtain ⟨i, hi⟩ := List.mem_iff_getElem?.mp hj
  refine namesNear_eq hn hi fun k => ?_
  rw [LinkTable.mem_childrenAt_iff, table, LinkTable.mem_parentsAt_iff hn, hi]
  simp

theorem namesNear_of_notMem {n : String} (h : n ∉ g.jobs.map (·.name))
    (side : LinkTable → Nat → List Nat) : g.namesNear side n = .error (.unknownJob n) := by
  unfold namesNear
  rw [table, LinkTable.place_eq_none h]
  rfl

/-! ## Graphs of listed jobs -/

/-- A graph tells of its jobs what their parents say. A parent that is named twice is told once, but
counts twice. -/
structure ReadsParents (g : JobGraph) (jobs : List Job) : Prop where
  near : ∀ p ∈ jobs, ∀ c ∈ jobs, ∃ parents children,
    g.parentsOf c.name = .ok parents ∧ g.childrenOf p.name = .ok children ∧
      (p.name ∈ parents ↔ c.name ∈ children) ∧ (p.name ∈ parents ↔ p.name ∈ c.parents)
  inOrder : ∀ j ∈ jobs, ∀ names, g.parentsOf j.name = .ok names ∨ g.childrenOf j.name = .ok names →
    names.Nodup ∧ names.Sublist (jobs.map (·.name))
  roots : g.roots.Sublist (jobs.map (·.name)) ∧
    ∀ j ∈ jobs, j.name ∈ g.roots ↔ g.parentsOf j.name = .ok []
  edgeCount : g.edgeCount = (jobs.map (·.parents.length)).sum
  maxFanIn : (∀ j ∈ jobs, j.parents.length ≤ g.maxFanIn) ∧
    (jobs = [] → g.maxFanIn = 0) ∧ (jobs ≠ [] → ∃ j ∈ jobs, j.parents.length = g.maxFanIn)
  unknown : ∀ n, n ∉ jobs.map (·.name) →
    g.parentsOf n = .error (.unknownJob n) ∧ g.childrenOf n = .error (.unknownJob n)

/-- A name that stands once is among the names of chosen jobs exactly if its job is chosen. -/
theorem name_mem_filter_iff (hn : (jobs.map (·.name)).Nodup) {j : Job} (hj : j ∈ jobs)
    {q : Job → Bool} : j.name ∈ (jobs.filter q).map (·.name) ↔ q j = true := by
  rw [List.mem_map]
  constructor
  · rintro ⟨k, hk, hname⟩
    obtain ⟨hk, hq⟩ := List.mem_filter.mp hk
    rwa [← List.inj_on_of_nodup_map hn hk hj hname]
  · exact fun hq => ⟨j, List.mem_filter.mpr ⟨hj, hq⟩, rfl⟩

/-- A job waits for nothing exactly if no listed job is found among its parents. -/
theorem parentsOf_eq_nil_iff (hn : (g.jobs.map (·.name)).Nodup) {j : Job} (hj : j ∈ g.jobs) :
    g.parentsOf j.name = .ok [] ↔ j.parents = [] := by
  rw [parentsOf_eq hn hj, Except.ok.injEq, List.map_eq_nil_iff, List.filter_eq_nil_iff,
    List.eq_nil_iff_forall_not_mem]
  constructor
  · intro h p hp
    obtain ⟨k, hk, rfl⟩ := List.mem_map.mp (g.parentsListed j hj hp)
    exact h k hk (List.contains_iff_mem.mpr hp)
  · exact fun h k _ hk => h k.name (List.contains_iff_mem.mp hk)

/-- A graph that is made from a list of jobs tells of each of them, in the order of the list, which
jobs it waits for and which wait for it, as the parents of the jobs say. -/
theorem ofJobs_readsParents (hg : ofJobs jobs = .ok g) : g.ReadsParents jobs := by
  obtain rfl := jobs_of_ofJobs hg
  have hn := (listed_of_ofJobs hg).1
  have hsub : ∀ q : Job → Bool,
      ((g.jobs.filter q).map (·.name)).Sublist (g.jobs.map (·.name)) := fun q =>
    List.filter_sublist.map _
  refine ⟨fun p hp c hc => ?_, fun j hj names hnames => ?_, ⟨?_, fun j hj => ?_⟩, edgeCount_eq g,
    ⟨maxFanIn_le_iff.mp (Nat.le_refl _), fun h => ?_, exists_maxFanIn⟩, fun n h => ?_⟩
  · refine ⟨_, _, parentsOf_eq hn hc, childrenOf_eq hn hp, ?_, ?_⟩
    · rw [name_mem_filter_iff hn hp, name_mem_filter_iff hn hc]
    · rw [name_mem_filter_iff hn hp, List.contains_iff_mem]
  · rw [parentsOf_eq hn hj, childrenOf_eq hn hj, Except.ok.injEq, Except.ok.injEq] at hnames
    rcases hnames with rfl | rfl
    · exact ⟨hn.sublist (hsub _), hsub _⟩
    · exact ⟨hn.sublist (hsub _), hsub _⟩
  · rw [roots_eq]
    exact hsub _
  · rw [roots_eq, name_mem_filter_iff hn hj, List.isEmpty_iff, parentsOf_eq_nil_iff hn hj]
  · refine Nat.le_zero.mp (maxFanIn_le_iff.mpr fun j hj => ?_)
    rw [h] at hj
    cases hj
  · exact ⟨namesNear_of_notMem h _, namesNear_of_notMem h _⟩

open Sample in
/-- The tiles name the grid twice and are listed before it. They wait for one job by two links. -/
theorem tiles_readsParents : ∃ g, ofJobs [tiles, grid] = .ok g ∧ g.ReadsParents [tiles, grid] ∧
    g.edgeCount = 2 := by
  obtain ⟨g, hg, -⟩ : ∃ g, ofJobs [tiles, grid] = .ok g ∧ g.order = [grid, tiles] :=
    exists_ok_of_map_toOption (by decide +kernel)
  have h := ofJobs_readsParents hg
  exact ⟨g, hg, h, h.edgeCount⟩

end JobGraph

end GeoAssets
