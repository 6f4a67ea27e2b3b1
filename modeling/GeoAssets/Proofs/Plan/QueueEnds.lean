import GeoAssets.Proofs.Plan.Queue
import Mathlib.Data.Nat.ModEq

/-!
# Ends of queues

Jobs that go to a number of queues in turn stand in the queue of a number if they stand at a place
that leaves the same remainder. None waits for a job of another queue, so every job is waited for by
the end of one queue, or is that end (`FillsQueues`).
-/

namespace GeoAssets.Plan

open JobGraph

/-- Jobs are lined up in queues, as many as the width says. The first ones wait for the root and
every other one for the job that stands so many places before it; the ends are the last jobs of the
queues. -/
structure FillsQueues (root : String) (width : Nat) (jobs lined : List Job) (ends : List String) :
    Prop where
  length : lined.length = jobs.length
  first : ∀ i j, i < width → jobs[i]? = some j → lined[i]? = some (j.withParents [root])
  later : ∀ i j k, jobs[i]? = some j → jobs[i + width]? = some k →
    lined[i + width]? = some (k.withParents [j.name])
  length_ends : ends.length = min width jobs.length
  ends_nodup : ends.Nodup
  ends_subset : ends ⊆ names jobs
  existsUnique_end : ∀ j ∈ jobs, ∃! e, e ∈ ends ∧ (j.name = e ∨ IsAncestor lined j.name e)

namespace Queued

variable {root : String} {queues : Nat} {jobs : List Job} {tails : List String}

/-! ## One queue -/

/-- Only the job that stands as many places behind as there are queues waits for a job. -/
theorem getElem?_of_isParent (hq : Queued root queues jobs tails)
    (hn : (root :: names jobs).Nodup) {i : Nat} {a b : String} (ha : (names jobs)[i]? = some a)
    (h : IsParent jobs a b) : (names jobs)[i + queues]? = some b := by
  obtain ⟨j, hj, rfl, hparent⟩ := h
  obtain ⟨k, hk⟩ := List.mem_iff_getElem?.mp hj
  obtain ⟨p, hp, hparents⟩ := hq.parents k j hk
  rw [hparents, List.mem_singleton] at hparent
  subst hparent
  have hplaces : k + 1 - queues = i + 1 := by
    refine (List.getElem?_inj (List.getElem?_eq_some_iff.mp hp).1 hn).mp (hp.trans ?_)
    rw [List.getElem?_cons_succ, ha]
  obtain rfl : k = i + queues := by omega
  rw [getElem?_names, hk]
  rfl

/-- A job stands in the queue of every job that waits for it. -/
theorem exists_modEq_of_isAncestor (hq : Queued root queues jobs tails)
    (hn : (root :: names jobs).Nodup) {i : Nat} {a b : String} (ha : (names jobs)[i]? = some a)
    (h : IsAncestor jobs a b) : ∃ k, (names jobs)[k]? = some b ∧ k ≡ i [MOD queues] := by
  induction h with
  | single h => exact ⟨i + queues, hq.getElem?_of_isParent hn ha h, Nat.add_modEq_right⟩
  | tail _ h ih =>
    obtain ⟨k, hk, hmod⟩ := ih
    exact ⟨k + queues, hq.getElem?_of_isParent hn hk h, Nat.add_modEq_right.trans hmod⟩

/-! ## One end -/

/-- The ends are the last jobs. -/
theorem le_of_mem_tails (hq : Queued root queues jobs tails) (hn : (names jobs).Nodup) {k : Nat}
    {e : String} (hk : (names jobs)[k]? = some e) (he : e ∈ tails) : jobs.length ≤ k + queues := by
  obtain ⟨i, hi⟩ := List.mem_iff_getElem?.mp (hq.tails_perm.mem_iff.mp he)
  rw [List.getElem?_drop] at hi
  obtain rfl : k = jobs.length - queues + i :=
    (List.getElem?_inj (List.getElem?_eq_some_iff.mp hk).1 hn).mp (hk.trans hi.symm)
  omega

/-- Of the jobs of one queue at most one is an end. -/
theorem eq_of_modEq (hq : Queued root queues jobs tails) (hn : (names jobs).Nodup) {i k : Nat}
    {a b : String} (ha : (names jobs)[i]? = some a) (hb : (names jobs)[k]? = some b)
    (hat : a ∈ tails) (hbt : b ∈ tails) (h : i ≡ k [MOD queues]) : a = b := by
  have hilast := hq.le_of_mem_tails hn ha hat
  have hklast := hq.le_of_mem_tails hn hb hbt
  have hi := (List.getElem?_eq_some_iff.mp ha).1
  have hk := (List.getElem?_eq_some_iff.mp hb).1
  rw [length_names] at hi hk
  obtain rfl : i = k := h.eq_of_abs_lt (by rw [abs_lt]; omega)
  exact Option.some.inj (ha.symm.trans hb)

theorem existsUnique_end (hq : Queued root queues jobs tails) (hn : (root :: names jobs).Nodup)
    {j : Job} (hj : j ∈ jobs) : ∃! e, e ∈ tails ∧ (j.name = e ∨ IsAncestor jobs j.name e) := by
  obtain ⟨i, hi⟩ := List.mem_iff_getElem?.mp hj
  have hname : (names jobs)[i]? = some j.name := by rw [getElem?_names, hi]; rfl
  have hqueue : ∀ {e : String}, j.name = e ∨ IsAncestor jobs j.name e →
      ∃ k, (names jobs)[k]? = some e ∧ k ≡ i [MOD queues] := by
    rintro e (rfl | h)
    · exact ⟨i, hname, Nat.ModEq.refl i⟩
    · exact hq.exists_modEq_of_isAncestor hn hname h
  obtain ⟨e, he, hend⟩ := hq.exists_end (List.Subset.refl jobs) hi
  refine ⟨e, ⟨he, hend⟩, fun e' ⟨he', hend'⟩ => ?_⟩
  obtain ⟨k, hk, hmod⟩ := hqueue hend
  obtain ⟨k', hk', hmod'⟩ := hqueue hend'
  exact hq.eq_of_modEq hn.of_cons hk' hk he' he (hmod'.trans hmod.symm)

end Queued

/-! ## Lining up -/

/-- A job that is lined up stands where it stood, and waits for what stands as many places before it
as there are queues. -/
theorem exists_parent_of_inQueues (root : String) (queues : Nat) {jobs : List Job} {i : Nat}
    {j : Job} (hj : jobs[i]? = some j) : ∃ p,
      (root :: names jobs)[i + 1 - queueCount queues jobs.length]? = some p ∧
        (inQueues root queues jobs).1[i]? = some (j.withParents [p]) := by
  have hlt := (List.getElem?_eq_some_iff.mp hj).1
  have hq := inQueues_queued root queues (List.ne_nil_of_mem (List.mem_of_getElem? hj))
  obtain ⟨lined, hi⟩ : ∃ lined, (inQueues root queues jobs).1[i]? = some lined :=
    ⟨_, List.getElem?_eq_getElem (length_inQueues root queues jobs ▸ hlt)⟩
  obtain ⟨p, hp, hparents⟩ := hq.parents i lined hi
  refine ⟨p, names_inQueues root queues jobs ▸ hp, ?_⟩
  -- nothing but the parents is changed
  have hsame : (inQueues root queues jobs).1.map (·.withParents []) =
      jobs.map (·.withParents []) := map_lineUp (fun _ _ => rfl) root 0 _ jobs
  have hsame := congrArg (·[i]?) hsame
  rw [List.getElem?_map, List.getElem?_map, hj, hi] at hsame
  rw [hi, ← hparents]
  exact congrArg (·.map (·.withParents lined.parents)) hsame

/-- Jobs of distinct names are lined up in as many queues as are asked for, but in one at least, and
not in more than there are jobs. -/
theorem inQueues_fillsQueues (root : String) (queues : Nat) {jobs : List Job}
    (hn : (names jobs).Nodup) (hroot : root ∉ names jobs) :
    FillsQueues root (min (max queues 1) (max jobs.length 1)) jobs (inQueues root queues jobs).1
      (inQueues root queues jobs).2 := by
  change FillsQueues root (queueCount queues jobs.length) jobs _ _
  rcases eq_or_ne jobs [] with rfl | hne
  · have hnone : (inQueues root queues []).2 = [] := by simp [inQueues, lineUp, queueCount]
    rw [hnone]
    refine ⟨rfl, fun i j _ hj => ?_, fun i j k hj _ => ?_, (Nat.min_zero _).symm, .nil,
      List.nil_subset _, fun j hj => absurd hj List.not_mem_nil⟩
    · simp at hj
    · simp at hj
  have hq := inQueues_queued root queues hne
  have hnames := names_inQueues root queues jobs
  have hlength := length_inQueues root queues jobs
  have hwidth := hq.le_length
  have hdistinct : (root :: names (inQueues root queues jobs).1).Nodup := by
    rw [hnames]
    exact List.nodup_cons.mpr ⟨hroot, hn⟩
  constructor
  case length => exact hlength
  case first =>
    intro i j hi hj
    obtain ⟨p, hp, hlined⟩ := exists_parent_of_inQueues root queues hj
    rw [Nat.sub_eq_zero_of_le hi] at hp
    cases hp
    exact hlined
  case later =>
    intro i j k hj hk
    obtain ⟨p, hp, hlined⟩ := exists_parent_of_inQueues root queues hk
    rw [Nat.add_right_comm, Nat.add_sub_cancel, List.getElem?_cons_succ, getElem?_names, hj] at hp
    cases hp
    exact hlined
  case length_ends =>
    rw [hq.length_tails]
    exact (Nat.min_eq_left (hlength ▸ hwidth)).symm
  case ends_nodup =>
    exact hq.tails_perm.nodup_iff.mpr (hdistinct.of_cons.sublist (List.drop_sublist _ _))
  case ends_subset => exact hnames ▸ hq.tails_subset
  case existsUnique_end =>
    intro j hj
    obtain ⟨i, hi⟩ := List.mem_iff_getElem?.mp hj
    obtain ⟨p, -, hlined⟩ := exists_parent_of_inQueues root queues hi
    have hend := hq.existsUnique_end hdistinct (List.mem_of_getElem? hlined)
    exact hend

namespace Sample

/-- Five jobs that load a layer each. -/
def fiveLoads : List Job :=
  ["a", "b", "c", "d", "e"].map fun name => { name, kind := .gdalImport, command := ["load"] }

end Sample

open Sample in
/-- Of two queues one has three jobs and the other has two; the last jobs are the fifth and the
fourth. -/
theorem fiveLoads_fillQueues :
    (names fiveLoads).Nodup ∧ "create" ∉ names fiveLoads ∧
      FillsQueues "create" 2 fiveLoads (inQueues "create" 2 fiveLoads).1 ["e", "d"] ∧
      FillsQueues "create" 1 fiveLoads (inQueues "create" 0 fiveLoads).1 ["e"] := by
  have hn : (names fiveLoads).Nodup := by decide
  have hroot : "create" ∉ names fiveLoads := by decide
  exact ⟨hn, hroot, inQueues_fillsQueues "create" 2 hn hroot,
    inQueues_fillsQueues "create" 0 hn hroot⟩

end GeoAssets.Plan
