import GeoAssets.Plan.Brief
import GeoAssets.Plan.Chunk
import GeoAssets.Plan.Queue
import GeoAssets.Proofs.Compute.Steady
import Mathlib.Data.List.Rotate

/-!
# Load jobs

In a number of queues, each job waits for the one that stands so many places before it, and the
first ones wait for the job before all queues. The ends of the queues are the last jobs. Jobs that
do not wait for each other stand in queues of one job.
-/

namespace GeoAssets.Plan

open JobGraph

@[simp] theorem names_nil : names [] = [] :=
  rfl

@[simp] theorem names_cons (j : Job) (jobs : List Job) : names (j :: jobs) = j.name :: names jobs :=
  rfl

@[simp] theorem names_append (jobs others : List Job) :
    names (jobs ++ others) = names jobs ++ names others :=
  List.map_append

@[simp] theorem length_names (jobs : List Job) : (names jobs).length = jobs.length :=
  List.length_map _

theorem getElem?_names (jobs : List Job) (i : Nat) : (names jobs)[i]? = jobs[i]?.map (·.name) :=
  List.getElem?_map

/-! ## Queues -/

/-- Jobs in a number of queues that start after a root, and the names of the last ones. -/
structure Queued (root : String) (queues : Nat) (jobs : List Job) (tails : List String) : Prop where
  pos : 0 < queues
  le_length : queues ≤ jobs.length
  parents : ∀ i j, jobs[i]? = some j →
    ∃ p, (root :: names jobs)[i + 1 - queues]? = some p ∧ j.parents = [p]
  tails_perm : tails.Perm ((names jobs).drop (jobs.length - queues))

/-- The queues, from the one whose turn it is: it leaves the front and comes back at the end, with
another last job. -/
theorem rotate_turn {tails : List (Option String)} {slot : Nat} (h : slot < tails.length)
    (last : Option String) :
    ∃ others, tails.rotate slot = tails.getD slot none :: others ∧
      (tails.set slot last).rotate ((slot + 1) % tails.length) = others ++ [last] := by
  obtain ⟨before, tail, after, rfl, rfl⟩ : ∃ before tail after,
      tails = before ++ tail :: after ∧ slot = before.length :=
    ⟨tails.take slot, tails[slot], tails.drop (slot + 1), by simp,
      by rw [List.length_take, Nat.min_eq_left h.le]⟩
  refine ⟨after ++ before, ?_, ?_⟩
  · rw [List.rotate_append_length_eq]
    simp
  · have hset : (before ++ tail :: after).set before.length last =
        (before ++ [last]) ++ after := by
      simp
    have hlength : (before ++ tail :: after).length = ((before ++ [last]) ++ after).length := by
      simp
    have hslot : before.length + 1 = (before ++ [last]).length := by
      simp
    rw [hset, hlength, List.rotate_mod, hslot, List.rotate_append_length_eq, List.append_assoc]

/-- The parents are what comes first of the ends of the queues, in turn, and the jobs themselves;
what is left are the ends of the queues afterwards. -/
theorem lineUp_parents (root : String) (slot : Nat) (tails : List (Option String))
    (h : slot < tails.length) (jobs : List Job) :
    (lineUp root slot tails jobs).1.map (·.parents) =
        ((tails.rotate slot ++ (names jobs).map some).take jobs.length).map ([·.getD root]) ∧
      (lineUp root slot tails jobs).2.Perm
        ((tails.rotate slot ++ (names jobs).map some).drop jobs.length) := by
  induction jobs generalizing slot tails with
  | nil => simpa [lineUp] using (List.rotate_perm tails slot).symm
  | cons j rest ih =>
    obtain ⟨others, hnow, hnext⟩ := rotate_turn h (some j.name)
    have hslot : (slot + 1) % tails.length < (tails.set slot (some j.name)).length := by
      rw [List.length_set]
      exact Nat.mod_lt _ (Nat.zero_lt_of_lt h)
    obtain ⟨hparents, htails⟩ := ih _ _ hslot
    rw [hnext] at hparents htails
    rw [hnow]
    constructor
    · rw [lineUp, List.map_cons, hparents]
      simp [Job.withParents]
    · rw [lineUp]
      simpa using htails

/-- What stands a number of places before a job: the root, if there are not as many jobs. -/
theorem getElem?_replicate_append (root : String) {queues i : Nat} (jobs : List Job)
    {tail : Option String}
    (ht : (List.replicate queues none ++ (names jobs).map some)[i]? = some tail) :
    (root :: names jobs)[i + 1 - queues]? = some (tail.getD root) := by
  rcases Nat.lt_or_ge i queues with hi | hi
  · rw [List.getElem?_append_left (by simpa using hi), List.getElem?_replicate_of_lt hi] at ht
    cases ht
    rw [Nat.sub_eq_zero_of_le hi]
    rfl
  · rw [List.getElem?_append_right (by simpa using hi), List.length_replicate,
      List.getElem?_map, Option.map_eq_some_iff] at ht
    obtain ⟨name, hname, rfl⟩ := ht
    rw [Nat.sub_add_comm hi, List.getElem?_cons_succ, hname]
    rfl

theorem names_inQueues (root : String) (queues : Nat) (jobs : List Job) :
    names (inQueues root queues jobs).1 = names jobs :=
  map_name_lineUp root 0 _ jobs

theorem length_inQueues (root : String) (queues : Nat) (jobs : List Job) :
    (inQueues root queues jobs).1.length = jobs.length := by
  rw [← length_names, names_inQueues, length_names]

/-- Jobs that are lined up stand in queues. -/
theorem inQueues_queued (root : String) (queues : Nat) {jobs : List Job} (h : jobs ≠ []) :
    Queued root (queueCount queues jobs.length) (inQueues root queues jobs).1
      (inQueues root queues jobs).2 := by
  have hlength : 0 < jobs.length := List.length_pos_iff.mpr h
  have hpos : 0 < queueCount queues jobs.length := by
    unfold queueCount
    omega
  have hle : queueCount queues jobs.length ≤ jobs.length := by
    unfold queueCount
    omega
  have hnames := names_inQueues root queues jobs
  have hsame := length_inQueues root queues jobs
  obtain ⟨hparents, htails⟩ := lineUp_parents root 0
    (List.replicate (queueCount queues jobs.length) none) (by simpa using hpos) jobs
  rw [List.rotate_zero] at hparents htails
  refine ⟨hpos, hsame ▸ hle, fun i j hj => ?_, ?_⟩
  · have hi : ((inQueues root queues jobs).1.map (·.parents))[i]? = some j.parents := by
      rw [List.getElem?_map, hj]
      rfl
    rw [inQueues, hparents, List.getElem?_map, Option.map_eq_some_iff] at hi
    obtain ⟨tail, htail, hp⟩ := hi
    have hlt : i < jobs.length := hsame ▸ (List.getElem?_eq_some_iff.mp hj).1
    rw [List.getElem?_take_of_lt hlt] at htail
    rw [hnames]
    exact ⟨_, getElem?_replicate_append root jobs htail, hp.symm⟩
  · rw [hnames, hsame]
    refine (htails.filterMap id).trans (List.Perm.of_eq ?_)
    rw [List.drop_append, List.length_replicate, ← List.map_drop, List.filterMap_append,
      List.filterMap_map]
    simp

/-- Jobs that all wait for the root stand in queues of one job. -/
theorem queued_of_parents {root : String} {jobs : List Job} (h : jobs ≠ [])
    (hparents : ∀ j ∈ jobs, j.parents = [root]) :
    Queued root jobs.length jobs (names jobs) where
  pos := List.length_pos_iff.mpr h
  le_length := Nat.le_refl _
  parents := by
    intro i j hj
    rw [Nat.sub_eq_zero_of_le (List.getElem?_eq_some_iff.mp hj).1]
    exact ⟨root, rfl, hparents j (List.mem_of_getElem? hj)⟩
  tails_perm := by rw [Nat.sub_self, List.drop_zero]

namespace Queued

variable {root : String} {queues : Nat} {jobs : List Job} {tails : List String}

/-! ## Ends of queues -/

theorem length_tails (hq : Queued root queues jobs tails) : tails.length = queues := by
  have hle := hq.le_length
  rw [hq.tails_perm.length_eq, List.length_drop, length_names]
  omega

theorem tails_subset (hq : Queued root queues jobs tails) : tails ⊆ names jobs :=
  fun _ ht => List.mem_of_mem_drop (hq.tails_perm.mem_iff.mp ht)

theorem ne_nil (hq : Queued root queues jobs tails) : jobs ≠ [] :=
  List.length_pos_iff.mp (Nat.lt_of_lt_of_le hq.pos hq.le_length)

/-- The last jobs are the ends of the queues. -/
theorem mem_tails (hq : Queued root queues jobs tails) {i : Nat} {j : Job} (hj : jobs[i]? = some j)
    (hi : jobs.length ≤ i + queues) : j.name ∈ tails := by
  refine hq.tails_perm.mem_iff.mpr (List.mem_of_getElem? (i := i + queues - jobs.length) ?_)
  have hle := hq.le_length
  have hindex : jobs.length - queues + (i + queues - jobs.length) = i := by
    omega
  rw [List.getElem?_drop, hindex, getElem?_names, hj]
  rfl

theorem mem_tails_of_mem_getLast? (hq : Queued root queues jobs tails) {j : Job}
    (hj : j ∈ jobs.getLast?) : j.name ∈ tails := by
  have hpos := hq.pos
  refine hq.mem_tails (List.getLast?_eq_getElem? ▸ hj) ?_
  omega

/-- Every job that does not end its queue is waited for. -/
theorem isParent (hq : Queued root queues jobs tails) {i : Nat} {j k : Job}
    (hj : jobs[i]? = some j) (hk : jobs[i + queues]? = some k) {all : List Job}
    (hall : jobs ⊆ all) :
    IsParent all j.name k.name := by
  obtain ⟨p, hp, hparents⟩ := hq.parents _ k hk
  have hindex : i + queues + 1 - queues = i + 1 := by
    omega
  rw [hindex, List.getElem?_cons_succ, getElem?_names, hj] at hp
  refine ⟨k, hall (List.mem_of_getElem? hk), rfl, ?_⟩
  rw [hparents, List.mem_singleton]
  exact Option.some.inj hp

/-- Every job is an end, or is waited for by one. -/
theorem exists_end (hq : Queued root queues jobs tails) {all : List Job} (hall : jobs ⊆ all)
    {i : Nat} {j : Job} (hj : jobs[i]? = some j) :
    ∃ e ∈ tails, j.name = e ∨ IsAncestor all j.name e := by
  -- by the number of jobs that follow
  induction hn : jobs.length - i using Nat.strong_induction_on generalizing i j with
  | _ n ih =>
    rcases Nat.lt_or_ge (i + queues) jobs.length with hi | hi
    · have hk := List.getElem?_eq_getElem hi
      have hpos := hq.pos
      have hparent := hq.isParent hj hk hall
      obtain ⟨e, he, hend⟩ := ih _ (by omega) hk rfl
      refine ⟨e, he, .inr ?_⟩
      rcases hend with rfl | hend
      · exact hparent.isAncestor
      · exact Relation.TransGen.head hparent hend
    · exact ⟨j.name, hq.mem_tails hj hi, .inl rfl⟩

/-- What waits for the ends of the queues waits for all jobs in them. -/
theorem isAncestor (hq : Queued root queues jobs tails) {all : List Job} (hall : jobs ⊆ all)
    {next : Job} (hnext : next ∈ all) (htails : tails ⊆ next.parents) {i : Nat} {j : Job}
    (hj : jobs[i]? = some j) : IsAncestor all j.name next.name := by
  obtain ⟨e, he, hend⟩ := hq.exists_end hall hj
  have hlast : IsAncestor all e next.name := IsParent.isAncestor ⟨next, hnext, rfl, htails he⟩
  rcases hend with rfl | hend
  · exact hlast
  · exact hend.trans hlast

/-! ## Order -/

/-- What stands earlier in a list without repetitions is in every part of its beginning that what
stands later is in. -/
theorem mem_of_prefix {l before : List String} (hn : l.Nodup) (hbefore : before <+: l) {i j : Nat}
    {x y : String} (hx : l[i]? = some x) (hy : l[j]? = some y) (hij : i ≤ j) (hmem : y ∈ before) :
    x ∈ before := by
  obtain ⟨after, rfl⟩ := hbefore
  obtain ⟨k, hk⟩ := List.mem_iff_getElem?.mp hmem
  have hlt := (List.getElem?_eq_some_iff.mp hk).1
  have hky : (before ++ after)[k]? = some y := by
    rw [List.getElem?_append_left hlt, hk]
  obtain rfl : k = j :=
    (List.getElem?_inj (List.getElem?_eq_some_iff.mp hky).1 hn).mp (hky.trans hy.symm)
  rw [List.getElem?_append_left (Nat.lt_of_le_of_lt hij hlt)] at hx
  exact List.mem_of_getElem? hx

/-- The root and the queued jobs are in the order of submission. -/
theorem steady (hq : Queued root queues jobs tails) {first : Job} (hroot : first.name = root)
    (hfirst : first.parents = []) (hn : (names (first :: jobs)).Nodup) :
    Steady (first :: jobs) := by
  subst hroot
  have hpos := hq.pos
  constructor
  · intro before j after h
    cases before with
    | nil =>
      cases h
      rw [hfirst]
      exact List.nil_subset _
    | cons j' before =>
      rw [List.cons_append] at h
      obtain ⟨rfl, rfl⟩ := List.cons.inj h
      obtain ⟨p, hp, hparents⟩ := hq.parents before.length j (by simp)
      have hlt : before.length + 1 - queues < (first.name :: names before).length := by
        rw [List.length_cons, length_names]
        omega
      rw [names_append, ← List.cons_append, List.getElem?_append_left hlt] at hp
      rw [hparents]
      exact List.cons_subset.mpr ⟨List.mem_of_getElem? hp, List.nil_subset _⟩
  · intro done hdone
    refine List.pairwise_cons.mpr ⟨fun _ _ _ => by rw [hfirst]; exact List.nil_subset _, ?_⟩
    refine List.pairwise_iff_getElem.mpr fun i k hi hk hik hfree => ?_
    obtain ⟨p, hp, hparents⟩ := hq.parents i _ (List.getElem?_eq_getElem hi)
    obtain ⟨p', hp', hparents'⟩ := hq.parents k _ (List.getElem?_eq_getElem hk)
    rw [hparents'] at hfree
    rw [hparents]
    have hmem := mem_of_prefix hn (hdone.map _) hp hp' (by omega) (hfree List.mem_cons_self)
    exact List.cons_subset.mpr ⟨hmem, List.nil_subset _⟩

end Queued

/-! ## Chunks -/

theorem ceilDiv_le_iff {n d limit : Nat} (h : 0 < d) : ceilDiv n d ≤ limit ↔ n ≤ limit * d := by
  unfold ceilDiv
  rw [Nat.div_le_iff_le_mul h]
  omega

/-- The number of chunks is the quotient, rounded up. -/
theorem length_chunks {α : Type} {size : Nat} (h : 0 < size) (items : List α) :
    (chunks size items).length = ceilDiv items.length size := by
  fun_induction chunks size items with
  | case1 items hnone =>
    have hnil : items = [] := hnone.resolve_left h.ne'
    rw [hnil]
    exact (Nat.div_eq_of_lt (by simp; omega)).symm
  | case2 items hnone ih =>
    have hpos : 0 < items.length := List.length_pos_iff.mpr fun hnil => hnone (Or.inr hnil)
    rw [List.length_cons, ih, List.length_drop, ceilDiv, ceilDiv, ← Nat.add_div_right _ h]
    rcases Nat.le_total size items.length with hle | hle
    · congr 1
      omega
    · rw [Nat.sub_eq_zero_of_le hle, Nat.div_eq_of_lt_le (k := 1), Nat.div_eq_of_lt_le (k := 1)]
      all_goals omega

end GeoAssets.Plan
