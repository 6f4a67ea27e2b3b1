import GeoAssets.Proofs.Compute.Steady
import Mathlib.Data.List.Duplicate
import Mathlib.Order.WellFounded
import Mathlib.Data.Set.Finite.Basic

/-!
# The order of submission

The jobs that are taken follow their parents, and a job is left over exactly if it waits for itself,
perhaps through others, or for such a job (`JobGraph.WaitsInCircle`). So the jobs of a list make a
graph exactly if their names are distinct, the parents are jobs of the list, and no job waits for
itself.
-/

namespace GeoAssets

namespace JobGraph

/-! ## Taking jobs in turn -/

/-- Every job of a list comes after its parents, if the jobs of some names have come before. -/
def InTurn (done : List String) : List Job → Prop
  | [] => True
  | j :: rest => j.parents ⊆ done ∧ InTurn (done ++ [j.name]) rest

/-- In a list in turn, every job comes after its parents. -/
theorem InTurn.parents_subset {done : List String} {jobs : List Job} (h : InTurn done jobs)
    {before after : List Job} {j : Job} (hjobs : jobs = before ++ j :: after) :
    j.parents ⊆ done ++ before.map (·.name) := by
  induction before generalizing done jobs with
  | nil =>
    subst hjobs
    rw [List.map_nil, List.append_nil]
    exact h.1
  | cons b before ih =>
    subst hjobs
    have := ih h.2 rfl
    rwa [List.append_assoc] at this

/-- What is left over once the free jobs have been taken: the jobs were taken in turn, and the
others wait for jobs that were not taken. -/
theorem takeFree_beyond {done : List String} {line rest : List Job}
    (hline : ∀ j ∈ line, j.parents ⊆ done) (hrest : ∀ j ∈ rest, ¬ j.parents ⊆ done) :
    ∃ (order kept : List Job), takeFree line (rest.map (WaitingJob.beyond done)) =
        (order, kept.map (WaitingJob.beyond (done ++ order.map (·.name)))) ∧
      InTurn done order ∧ kept.Sublist rest ∧
      ∀ j ∈ kept, ¬ j.parents ⊆ done ++ order.map (·.name) := by
  induction hn : line.length + rest.length using Nat.strong_induction_on
    generalizing done line rest with
  | _ n ih =>
    cases line with
    | nil =>
      refine ⟨[], rest, ?_, trivial, List.Sublist.refl rest, ?_⟩
      · rw [takeFree, List.map_nil, List.append_nil]
      · rwa [List.map_nil, List.append_nil]
    | cons j line =>
      have hfreed : ∀ x ∈ line ++ rest.filter (·.isFreeAfter (done ++ [j.name])),
          x.parents ⊆ done ++ [j.name] := by
        intro x hx
        rcases List.mem_append.mp hx with hx | hx
        · exact List.subset_append_of_subset_left _ (hline x (List.mem_cons_of_mem j hx))
        · exact Job.isFreeAfter_iff.mp (List.mem_filter.mp hx).2
      have hkept : ∀ x ∈ rest.filter (!·.isFreeAfter (done ++ [j.name])),
          ¬ x.parents ⊆ done ++ [j.name] :=
        fun x hx => Job.not_isFreeAfter_iff.mp (List.mem_filter.mp hx).2
      have hlength := (List.filter_append_perm (·.isFreeAfter (done ++ [j.name])) rest).length_eq
      obtain ⟨order, kept, htake, hturn, hsub, hwait⟩ := ih _ (by
        rw [List.length_append] at hlength ⊢
        rw [← hn, List.length_cons]
        omega) hfreed hkept rfl
      refine ⟨j :: order, kept, ?_, ⟨hline j List.mem_cons_self, hturn⟩,
        hsub.trans List.filter_sublist, ?_⟩
      · rw [takeFree, WaitingJob.freedBy_map_beyond, WaitingJob.keptBy_map_beyond, htake,
          List.append_assoc]
        rfl
      · intro x hx
        have := hwait x hx
        rwa [List.append_assoc] at this

/-- The jobs of a list are arranged in turn, and those that are left over wait for such jobs. -/
theorem arrange_beyond (jobs : List Job) :
    ∃ (order kept : List Job),
      arrange jobs = (order, kept.map (WaitingJob.beyond (order.map (·.name)))) ∧
      InTurn [] order ∧ kept.Sublist jobs ∧ (order ++ kept).Perm jobs ∧
      ∀ j ∈ kept, ¬ j.parents ⊆ order.map (·.name) := by
  have hfree : ∀ j ∈ jobs.filter (·.isFreeAfter []), j.parents ⊆ [] := fun j hj =>
    Job.isFreeAfter_iff.mp (List.mem_filter.mp hj).2
  have hwaits : ∀ j ∈ jobs.filter (!·.isFreeAfter []), ¬ j.parents ⊆ [] := fun j hj =>
    Job.not_isFreeAfter_iff.mp (List.mem_filter.mp hj).2
  obtain ⟨order, kept, htake, hturn, hsub, hkept⟩ := takeFree_beyond hfree hwaits
  refine ⟨order, kept, ?_, hturn, hsub.trans List.filter_sublist, ?_, hkept⟩
  · rw [arrange_eq_takeFree]
    exact htake
  · have hperm := takeFree_perm (jobs.filter (·.isFreeAfter []))
      ((jobs.filter (!·.isFreeAfter [])).map (WaitingJob.beyond []))
    rw [htake, WaitingJob.map_job_map_beyond, WaitingJob.map_job_map_beyond] at hperm
    exact hperm.trans (List.filter_append_perm _ jobs)

/-! ## Circles -/

/-- No job waits for itself, not even through others. -/
def Acyclic (jobs : List Job) : Prop :=
  ∀ n, ¬ IsAncestor jobs n n

/-- A job waits for itself, perhaps through others, or for such a job. -/
def WaitsInCircle (jobs : List Job) (n : String) : Prop :=
  ∃ m, IsAncestor jobs m m ∧ Relation.ReflTransGen (IsParent jobs) m n

/-- A job that waits in a circle has a parent that does. -/
theorem WaitsInCircle.parent {jobs : List Job} {n : String} (h : WaitsInCircle jobs n) :
    ∃ p, IsParent jobs p n ∧ WaitsInCircle jobs p := by
  obtain ⟨m, hm, hn⟩ := h
  rcases hn.cases_tail with rfl | ⟨p, hp, hpn⟩
  · obtain ⟨p, hp, hpn⟩ := Relation.TransGen.tail'_iff.mp hm
    exact ⟨p, hpn, _, hm, hp⟩
  · exact ⟨p, hpn, m, hm, hp⟩

theorem Acyclic.not_waitsInCircle {jobs : List Job} (h : Acyclic jobs) (n : String) :
    ¬ WaitsInCircle jobs n :=
  fun ⟨m, hm, _⟩ => h m hm

/-- A relation on a finite type without circles has a first element. -/
theorem exists_first {α : Type} [Finite α] [Nonempty α] {r : α → α → Prop}
    (h : ∀ a, ¬ Relation.TransGen r a a) : ∃ a, ∀ b, ¬ r b a := by
  have : Std.Irrefl (Relation.TransGen r) := ⟨h⟩
  obtain ⟨a, -, hfirst⟩ := (Finite.wellFounded_of_trans_of_irrefl (Relation.TransGen r)).has_min
    Set.univ Set.univ_nonempty
  exact ⟨a, fun b hb => hfirst b trivial (.single hb)⟩

/-- Among finitely many jobs that all have a parent among them, each waits in a circle. -/
theorem waitsInCircle_of_parents {jobs : List Job} {names : List String}
    (h : ∀ n ∈ names, ∃ p ∈ names, IsParent jobs p n) {n : String} (hn : n ∈ names) :
    WaitsInCircle jobs n := by
  by_contra hcircle
  -- among the names before `n`, none is its own ancestor, so one comes first
  let before := {m | m ∈ names ∧ Relation.ReflTransGen (IsParent jobs) m n}
  have : Finite before := (names.finite_toSet.subset fun _ hm => hm.1).to_subtype
  have : Nonempty before := ⟨⟨n, hn, .refl⟩⟩
  obtain ⟨⟨m, hm, hmn⟩, hfirst⟩ := exists_first
    (r := fun a b : before => IsParent jobs a.1 b.1) fun a ha =>
      hcircle ⟨a.1, ha.lift Subtype.val fun _ _ h => h, a.2.2⟩
  obtain ⟨p, hp, hpm⟩ := h m hm
  exact hfirst ⟨p, hp, hmn.head hpm⟩ hpm

/-- No job that is taken in turn waits in a circle. -/
theorem InTurn.not_waitsInCircle {jobs : List Job} (hn : (jobs.map (·.name)).Nodup)
    {done : List String} {order : List Job} (h : InTurn done order) (hsub : order ⊆ jobs)
    (hdone : ∀ n ∈ done, ¬ WaitsInCircle jobs n) :
    ∀ j ∈ order, ¬ WaitsInCircle jobs j.name := by
  induction order generalizing done with
  | nil => exact fun _ hj => absurd hj List.not_mem_nil
  | cons j rest ih =>
    obtain ⟨hjmem, hsub⟩ := List.cons_subset.mp hsub
    have hj : ¬ WaitsInCircle jobs j.name := by
      intro hcircle
      obtain ⟨p, ⟨j', hj', hname, hp⟩, hpcircle⟩ := hcircle.parent
      obtain rfl := List.inj_on_of_nodup_map hn hj' hjmem hname
      exact hdone p (h.1 hp) hpcircle
    refine List.forall_mem_cons.mpr ⟨hj, ih h.2 hsub fun n hmem => ?_⟩
    rcases List.mem_append.mp hmem with hmem | hmem
    · exact hdone n hmem
    · rwa [List.mem_singleton.mp hmem]

/-! ## Lists that make a graph -/

/-- The parents of the jobs are jobs of the list. -/
def ParentsListed (jobs : List Job) : Prop :=
  ∀ j ∈ jobs, j.parents ⊆ jobs.map (·.name)

/-- Every job of a list comes after its parents. -/
def ParentsFirst (jobs : List Job) : Prop :=
  ∀ before j after, jobs = before ++ j :: after → j.parents ⊆ before.map (·.name)

/-- A name that is found stands in the list twice, or was seen before. -/
theorem duplicate_of_firstRepeated? {seen names : List String} {n : String}
    (h : firstRepeated? seen names = some n) : n ∈ seen ∧ n ∈ names ∨ List.Duplicate n names := by
  induction names generalizing seen with
  | nil => cases h
  | cons m rest ih =>
    unfold firstRepeated? at h
    split at h
    · next hm =>
      cases h
      exact .inl ⟨hm, List.mem_cons_self⟩
    · rcases ih h with ⟨hseen, hrest⟩ | hrest
      · rcases List.mem_cons.mp hseen with rfl | hseen
        · exact .inr (List.Mem.duplicate_cons_self hrest)
        · exact .inl ⟨hseen, List.mem_cons_of_mem m hrest⟩
      · exact .inr (hrest.duplicate_cons m)

theorem firstUnknownParent?_eq_none_iff {jobs : List Job} :
    firstUnknownParent? jobs = none ↔ ParentsListed jobs := by
  unfold firstUnknownParent? ParentsListed
  rw [List.findSome?_eq_none_iff]
  refine forall₂_congr fun j _ => ?_
  rw [Option.map_eq_none_iff, List.find?_eq_none]
  refine forall₂_congr fun p _ => ?_
  rw [Bool.not_eq_true', Bool.not_eq_false, List.contains_iff_mem]

/-- What is found is a parent that is no job of the list, with the job that waits for it. -/
theorem of_firstUnknownParent? {jobs : List Job} {parent child : String}
    (h : firstUnknownParent? jobs = some (parent, child)) :
    IsParent jobs parent child ∧ parent ∉ jobs.map (·.name) := by
  obtain ⟨j, hj, hfind⟩ := List.exists_of_findSome?_eq_some h
  obtain ⟨p, hp, hpair⟩ := Option.map_eq_some_iff.mp hfind
  cases hpair
  refine ⟨⟨j, hj, rfl, List.mem_of_find?_eq_some hp⟩, ?_⟩
  simpa using List.find?_some hp

/-- The jobs of distinct names and listed parents that are left over are those that wait in a
circle. -/
theorem mem_kept_iff {jobs order kept : List Job} (hn : (jobs.map (·.name)).Nodup)
    (hlisted : ParentsListed jobs) (hturn : InTurn [] order) (hperm : (order ++ kept).Perm jobs)
    (hkept : ∀ j ∈ kept, ¬ j.parents ⊆ order.map (·.name)) (n : String) :
    n ∈ kept.map (·.name) ↔ n ∈ jobs.map (·.name) ∧ WaitsInCircle jobs n := by
  have hmem : ∀ j, j ∈ jobs ↔ j ∈ order ∨ j ∈ kept := fun j => by
    rw [← hperm.mem_iff, List.mem_append]
  constructor
  · intro h
    have hlist : n ∈ jobs.map (·.name) :=
      List.map_subset _ (fun j hj => (hmem j).mpr (.inr hj)) h
    refine ⟨hlist, waitsInCircle_of_parents (fun m hm => ?_) h⟩
    -- a job that is left over waits for another one that is
    obtain ⟨j, hj, rfl⟩ := List.mem_map.mp hm
    obtain ⟨p, hp, hnot⟩ := Set.not_subset.mp (hkept j hj)
    obtain ⟨j', hj', rfl⟩ := List.mem_map.mp (hlisted j ((hmem j).mpr (.inr hj)) hp)
    refine ⟨_, List.mem_map_of_mem ?_, j, (hmem j).mpr (.inr hj), rfl, hp⟩
    exact ((hmem j').mp hj').resolve_left fun h => hnot (List.mem_map_of_mem h)
  · rintro ⟨hlist, hcircle⟩
    obtain ⟨j, hj, rfl⟩ := List.mem_map.mp hlist
    refine List.mem_map_of_mem (((hmem j).mp hj).resolve_left fun horder => ?_)
    exact hturn.not_waitsInCircle hn (fun j hj => (hmem j).mpr (.inl hj))
      (fun _ h => absurd h List.not_mem_nil) j horder hcircle

/-! ## The jobs of a graph in order -/

/-- A job with a name of its own is found by it. -/
theorem find?_name {jobs : List Job} (hn : (jobs.map (·.name)).Nodup) {j : Job} (hj : j ∈ jobs) :
    jobs.find? (·.name == j.name) = some j := by
  cases hfind : jobs.find? (·.name == j.name) with
  | none => exact absurd (beq_self_eq_true j.name) (List.find?_eq_none.mp hfind j hj)
  | some j' =>
    have hname : j'.name = j.name := by simpa using List.find?_some hfind
    rw [List.inj_on_of_nodup_map hn (List.mem_of_find?_eq_some hfind) hj hname]

/-- Looking up the names of jobs gives the jobs. -/
theorem filterMap_find? {jobs order : List Job} (hn : (jobs.map (·.name)).Nodup)
    (hsub : order ⊆ jobs) :
    (order.map (·.name)).filterMap (fun n => jobs.find? (·.name == n)) = order := by
  rw [List.filterMap_map]
  refine (List.filterMap_congr fun j hj => find?_name hn (hsub hj)).trans ?_
  exact List.filterMap_some

/-- Taking out the names of jobs gives the jobs. -/
theorem takeOut_names {jobs order : List Job} (hn : (jobs.map (·.name)).Nodup)
    (hperm : order.Perm jobs) : takeOut jobs (order.map (·.name)) = order := by
  induction order generalizing jobs with
  | nil => rfl
  | cons j rest ih =>
    have hfind := find?_name hn (hperm.subset List.mem_cons_self)
    obtain ⟨hj, before, after, rfl, hbefore⟩ := List.find?_eq_some_iff_append.mp hfind
    have herase : (before ++ j :: after).eraseP (·.name == j.name) = before ++ after := by
      rw [List.eraseP_append_right _ (fun b hb => by simpa using hbefore b hb),
        List.eraseP_cons_of_pos (p := fun x : Job => x.name == j.name) hj]
    have hrest : rest.Perm (before ++ after) := (hperm.trans List.perm_middle).cons_inv
    rw [List.map_cons, takeOut, hfind]
    dsimp only
    rw [herase, ih (hn.sublist ?_) hrest]
    exact ((List.sublist_cons_self j after).append_left before).map _

/-- The jobs of a list are given in the order of submission by both ways to ask for it. -/
theorem sorted_eq {g : JobGraph} (hn : (g.jobs.map (·.name)).Nodup) :
    g.sorted = .ok g.order ∧ g.intoSorted = .ok g.order := by
  have hnames : g.namesInOrder = .ok (g.order.map (·.name)) := by
    unfold namesInOrder
    rw [g.arranged]
  unfold sorted intoSorted
  rw [hnames]
  exact ⟨congrArg Except.ok (filterMap_find? hn g.order_perm.subset),
    congrArg Except.ok (takeOut_names hn g.order_perm)⟩

/-! ## The three conditions -/

theorem ofJobs_of_duplicate {jobs : List Job} (hn : ¬ (jobs.map (·.name)).Nodup) :
    ∃ n, List.Duplicate n (jobs.map (·.name)) ∧
      ofJobs jobs = .error (.invalidOptions ("duplicate job name '" ++ n ++ "'")) := by
  unfold ofJobs
  split
  · next n h =>
    refine ⟨n, (duplicate_of_firstRepeated? h).resolve_left ?_, rfl⟩
    exact fun hseen => List.not_mem_nil hseen.1
  · next h => exact absurd (firstRepeated?_eq_none_iff.mp h).1 hn

theorem ofJobs_of_unlisted {jobs : List Job} (hn : (jobs.map (·.name)).Nodup)
    (hlisted : ¬ ParentsListed jobs) :
    ∃ parent child, IsParent jobs parent child ∧ parent ∉ jobs.map (·.name) ∧
      ofJobs jobs = .error (.unknownJob (parent ++ " (parent of " ++ child ++ ")")) := by
  unfold ofJobs
  rw [firstRepeated?_eq_none_iff.mpr ⟨hn, fun _ _ => List.not_mem_nil⟩]
  dsimp only
  split
  · next parent child h =>
    obtain ⟨hparent, hnot⟩ := of_firstUnknownParent? h
    exact ⟨parent, child, hparent, hnot, rfl⟩
  · next h => exact absurd (firstUnknownParent?_eq_none_iff.mp h) hlisted

/-- Jobs of distinct names and listed parents make a graph, with the order in which they are taken,
unless some are left over, and these are the ones that wait in a circle. -/
theorem ofJobs_of_listed {jobs : List Job} (hn : (jobs.map (·.name)).Nodup)
    (hlisted : ParentsListed jobs) : ∃ kept : List Job, kept.Sublist jobs ∧
      (∀ n, n ∈ kept.map (·.name) ↔ n ∈ jobs.map (·.name) ∧ WaitsInCircle jobs n) ∧
      (kept = [] ∧ (∃ g, ofJobs jobs = .ok g ∧ g.jobs = jobs ∧ InTurn [] g.order) ∨
        kept ≠ [] ∧ ofJobs jobs = .error (.cycle (kept.map (·.name)))) := by
  obtain ⟨order, kept, harranged, hturn, hsub, hperm, hkept⟩ := arrange_beyond jobs
  refine ⟨kept, hsub, mem_kept_iff hn hlisted hturn hperm hkept, ?_⟩
  unfold ofJobs
  rw [firstRepeated?_eq_none_iff.mpr ⟨hn, fun _ _ => List.not_mem_nil⟩,
    firstUnknownParent?_eq_none_iff.mpr hlisted]
  dsimp only
  split
  · next order' h =>
    obtain ⟨rfl, hnil⟩ := Prod.ext_iff.mp (harranged.symm.trans h)
    exact .inl ⟨List.map_eq_nil_iff.mp hnil, _, rfl, rfl, hturn⟩
  · next order' stuck hstuck h =>
    obtain ⟨rfl, rfl⟩ := Prod.ext_iff.mp (harranged.symm.trans h)
    refine .inr ⟨fun hnil => hstuck (List.map_eq_nil_iff.mpr hnil), ?_⟩
    rw [List.map_map]
    rfl

/-- A job that waits for another is listed. -/
theorem IsAncestor.mem_names {jobs : List Job} {m n : String} (h : IsAncestor jobs m n) :
    n ∈ jobs.map (·.name) := by
  obtain ⟨_, _, j, hj, rfl, _⟩ := Relation.TransGen.tail'_iff.mp h
  exact List.mem_map_of_mem hj

/-- No job waits for itself if none that is listed waits in a circle. -/
theorem acyclic_iff {jobs : List Job} :
    Acyclic jobs ↔ ∀ n, ¬ (n ∈ jobs.map (·.name) ∧ WaitsInCircle jobs n) :=
  ⟨fun h n hn => h.not_waitsInCircle n hn.2,
    fun h n hn => h n ⟨hn.mem_names, n, hn, .refl⟩⟩

theorem InTurn.parentsFirst {order : List Job} (h : InTurn [] order) : ParentsFirst order :=
  fun _ _ _ horder => h.parents_subset horder

theorem listed_of_ofJobs {jobs : List Job} {g : JobGraph} (hg : ofJobs jobs = .ok g) :
    (jobs.map (·.name)).Nodup ∧ ParentsListed jobs := by
  have hn : (jobs.map (·.name)).Nodup := by
    by_contra hn
    obtain ⟨_, _, h⟩ := ofJobs_of_duplicate hn
    cases hg.symm.trans h
  refine ⟨hn, ?_⟩
  by_contra hlisted
  obtain ⟨_, _, _, _, h⟩ := ofJobs_of_unlisted hn hlisted
  cases hg.symm.trans h

theorem exists_ofJobs_iff {jobs : List Job} :
    (∃ g, ofJobs jobs = .ok g) ↔
      (jobs.map (·.name)).Nodup ∧ ParentsListed jobs ∧ Acyclic jobs := by
  rw [acyclic_iff]
  constructor
  · rintro ⟨g, hg⟩
    obtain ⟨hn, hlisted⟩ := listed_of_ofJobs hg
    obtain ⟨kept, _, hmem, ⟨rfl, _⟩ | ⟨_, h⟩⟩ := ofJobs_of_listed hn hlisted
    · exact ⟨hn, hlisted, fun n h => List.not_mem_nil ((hmem n).mpr h)⟩
    · cases hg.symm.trans h
  · rintro ⟨hn, hlisted, hacyclic⟩
    obtain ⟨kept, _, hmem, ⟨_, g, hg, _⟩ | ⟨hne, _⟩⟩ := ofJobs_of_listed hn hlisted
    · exact ⟨g, hg⟩
    · obtain ⟨j, hj⟩ := List.exists_mem_of_ne_nil kept hne
      exact absurd ((hmem j.name).mp (List.mem_map_of_mem hj)) (hacyclic j.name)

/-- The order of a graph that was made from a list. -/
theorem order_of_ofJobs {jobs : List Job} {g : JobGraph} (hg : ofJobs jobs = .ok g) :
    g.sorted = .ok g.order ∧ g.intoSorted = .ok g.order ∧ g.order.Perm jobs ∧
      ParentsFirst g.order := by
  obtain ⟨hn, hlisted⟩ := listed_of_ofJobs hg
  obtain ⟨kept, _, _, ⟨_, g', hg', rfl, hturn⟩ | ⟨_, h⟩⟩ := ofJobs_of_listed hn hlisted
  · obtain rfl := Except.ok.inj (hg.symm.trans hg')
    obtain ⟨hsorted, hinto⟩ := sorted_eq hn
    exact ⟨hsorted, hinto, g.order_perm, hturn.parentsFirst⟩
  · cases hg.symm.trans h

/-- The jobs of a graph that was made from a list are those of the list. -/
theorem jobs_of_ofJobs {jobs : List Job} {g : JobGraph} (hg : ofJobs jobs = .ok g) :
    g.jobs = jobs := by
  obtain ⟨hn, hlisted⟩ := listed_of_ofJobs hg
  obtain ⟨kept, _, _, ⟨_, g', hg', hjobs, _⟩ | ⟨_, h⟩⟩ := ofJobs_of_listed hn hlisted
  · obtain rfl := Except.ok.inj (hg.symm.trans hg')
    exact hjobs
  · cases hg.symm.trans h

theorem ofJobs_of_circle {jobs : List Job} (hn : (jobs.map (·.name)).Nodup)
    (hlisted : ParentsListed jobs) (hcircle : ¬ Acyclic jobs) :
    ∃ stuck, stuck.Sublist (jobs.map (·.name)) ∧
      (∀ n, n ∈ stuck ↔ n ∈ jobs.map (·.name) ∧ WaitsInCircle jobs n) ∧
      ofJobs jobs = .error (.cycle stuck) := by
  obtain ⟨kept, hsub, hmem, ⟨_, g, hg, _⟩ | ⟨_, h⟩⟩ := ofJobs_of_listed hn hlisted
  · exact absurd (exists_ofJobs_iff.mp ⟨g, hg⟩).2.2 hcircle
  · exact ⟨_, hsub.map _, hmem, h⟩

/-- A list of jobs makes a graph exactly if the names are distinct, the parents are listed, and no
job waits for itself; then both ways to ask for the order of submission give the same one, of all
the jobs, parents first. If not, the error is that of the first of the three that fails: it tells a
name that stands in the list twice, or a parent that is not listed with the job that waits for it,
or the jobs, in the order of the list, that wait in a circle. -/
theorem ofJobs_correct (jobs : List Job) :
    ((∃ g, ofJobs jobs = .ok g) ↔
      (jobs.map (·.name)).Nodup ∧ ParentsListed jobs ∧ Acyclic jobs) ∧
    (∀ g, ofJobs jobs = .ok g → ∃ order, g.sorted = .ok order ∧ g.intoSorted = .ok order ∧
      order.Perm jobs ∧ ParentsFirst order) ∧
    (¬ (jobs.map (·.name)).Nodup → ∃ n, List.Duplicate n (jobs.map (·.name)) ∧
      ofJobs jobs = .error (.invalidOptions ("duplicate job name '" ++ n ++ "'"))) ∧
    ((jobs.map (·.name)).Nodup → ¬ ParentsListed jobs → ∃ parent child,
      IsParent jobs parent child ∧ parent ∉ jobs.map (·.name) ∧
      ofJobs jobs = .error (.unknownJob (parent ++ " (parent of " ++ child ++ ")"))) ∧
    ((jobs.map (·.name)).Nodup → ParentsListed jobs → ¬ Acyclic jobs → ∃ stuck,
      stuck.Sublist (jobs.map (·.name)) ∧
      (∀ n, n ∈ stuck ↔ n ∈ jobs.map (·.name) ∧ WaitsInCircle jobs n) ∧
      ofJobs jobs = .error (.cycle stuck)) :=
  ⟨exists_ofJobs_iff, fun g hg => ⟨g.order, order_of_ofJobs hg⟩, ofJobs_of_duplicate,
    ofJobs_of_unlisted, ofJobs_of_circle⟩

namespace Sample

/-- A job that waits for nothing. -/
def grid : Job :=
  { name := "grid", kind := .rasterProcessing, command := [] }

/-- A job that names its parent twice. -/
def tiles : Job :=
  { name := "tiles", kind := .tileCache, command := [], parents := ["grid", "grid"] }

/-- A job that its own parent waits for. -/
def lateGrid : Job :=
  grid.withParents ["tiles"]

end Sample

open Sample in
/-- Tiles follow their grid; they make no graph with two grids, without it, or if it waits for
them. -/
theorem ofJobs_tiles :
    (∃ g order, ofJobs [tiles, grid] = .ok g ∧ g.sorted = .ok order ∧ ParentsFirst order) ∧
    (∃ n, ofJobs [tiles, grid, grid] =
      .error (.invalidOptions ("duplicate job name '" ++ n ++ "'"))) ∧
    (∃ parent child,
      ofJobs [tiles] = .error (.unknownJob (parent ++ " (parent of " ++ child ++ ")"))) ∧
    ∃ stuck, "grid" ∈ stuck ∧ ofJobs [tiles, lateGrid] = .error (.cycle stuck) := by
  refine ⟨?_, ?_, ?_, ?_⟩
  · have hok : (ofJobs [tiles, grid]).isOk = true := by decide +kernel
    obtain ⟨g, hg⟩ : ∃ g, ofJobs [tiles, grid] = .ok g := by
      cases h : ofJobs [tiles, grid] with
      | ok g => exact ⟨g, rfl⟩
      | error e =>
        rw [h] at hok
        cases hok
    obtain ⟨order, hsorted, _, _, hfirst⟩ := (ofJobs_correct [tiles, grid]).2.1 g hg
    exact ⟨g, order, hg, hsorted, hfirst⟩
  · obtain ⟨n, _, h⟩ := (ofJobs_correct [tiles, grid, grid]).2.2.1 (by decide)
    exact ⟨n, h⟩
  · have hnot : ¬ ParentsListed [tiles] := by unfold ParentsListed; decide
    obtain ⟨parent, child, _, _, h⟩ := (ofJobs_correct [tiles]).2.2.2.1 (by decide) hnot
    exact ⟨parent, child, h⟩
  · have hlisted : ParentsListed [tiles, lateGrid] := by unfold ParentsListed; decide
    have hgrid : IsAncestor [tiles, lateGrid] "grid" "grid" :=
      .tail (.single ⟨tiles, by decide, rfl, by decide⟩) ⟨lateGrid, by decide, rfl, by decide⟩
    obtain ⟨stuck, _, hmem, h⟩ :=
      (ofJobs_correct [tiles, lateGrid]).2.2.2.2 (by decide) hlisted fun h => h "grid" hgrid
    exact ⟨stuck, (hmem "grid").mpr ⟨by decide, "grid", hgrid, .refl⟩, h⟩

end JobGraph

end GeoAssets
