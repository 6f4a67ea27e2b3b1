import GeoAssets.Proofs.Background.Turns

/-!
# Rounds of turns

Scripts have their turns in rounds, in whichever order they stand in line. A round in which anybody
is in line leaves less to do, so that there are rounds enough: all scripts end if turns are given
until nobody is in line (`Crew.Kept.pump`), the script that is waited for ends (`Crew.Kept.await`),
and so do the scripts that others start meanwhile (`Crew.Kept.drain`).
-/

namespace GeoAssets

namespace Crew

open Background
open scoped List

variable {c : Crew} {aside : List Nat} {n : Nat}

/-! ## Lines -/

/-- Every script that has not ended stands in one of the lines or was set aside. -/
def Kept (c : Crew) (aside : List Nat) : Prop :=
  c.work.Kept (c.arrivals ++ aside)

theorem Kept.park (hc : c.Kept aside) (hn : n ∈ c.work.ready ++ c.arrivals) :
    (c.work.park n).Kept (n :: (c.arrivals.filter (· ≠ n) ++ aside)) := by
  refine { hc with line := List.Perm.trans ?_ hc.line }
  have hnodup := hc.line.nodup_iff.mpr hc.distinct
  rw [← List.append_assoc] at hnodup
  have haside : aside.filter (· ≠ n) = aside := List.filter_eq_self.mpr fun m hm =>
    decide_eq_true fun hmn => (List.nodup_append.mp hnodup).2.2 n hn m hm hmn.symm
  calc c.work.ready.filter (· ≠ n) ++ n :: (c.arrivals.filter (· ≠ n) ++ aside)
    _ ~ n :: (c.work.ready ++ c.arrivals ++ aside).filter (· ≠ n) := by
      rw [List.filter_append, List.filter_append, haside, List.append_assoc]
      exact List.perm_middle
    _ ~ n :: (c.work.ready ++ c.arrivals ++ aside).erase n := by
      rw [hnodup.erase_eq_filter]
      exact .of_eq (congrArg _ (List.filter_congr fun m _ => Bool.eq_iff_iff.mpr (by simp)))
    _ ~ c.work.ready ++ c.arrivals ++ aside :=
      (List.perm_cons_erase (List.mem_append_left _ hn)).symm
    _ ~ c.work.ready ++ (c.arrivals ++ aside) := .of_eq (List.append_assoc _ _ _)

theorem Kept.exists_piece (hc : c.Kept aside) (hn : n ∈ c.work.ready ++ c.arrivals) :
    ∃ p, c.work.pieces.get? n = some p := by
  refine Directory.mem_keys_iff_get?.mp (hc.line.mem_iff.mp ?_)
  rw [← List.append_assoc]
  exact List.mem_append_left _ hn

/-- A script in line has its turn. -/
theorem Kept.turn (hc : c.Kept aside) (hn : n ∈ c.work.ready ++ c.arrivals) :
    c.work.Onward (c.turn n).2.work ∧ (c.turn n).2.size < c.size ∧
      (c.turn n).2.Kept ((c.turn n).1.toList ++ aside) := by
  obtain ⟨⟨name, isWatched, rest⟩, hp⟩ := hc.exists_piece hn
  obtain ⟨hlt, rfl⟩ := hc.registered n _ hp
  have hpark := hc.park hn
  have honward : c.work.Onward (c.work.park n) := c.work.onward_lineUp _
  have hself := setRest_self (b := c.work.park n) hc.distinct hp
  have hturns := turns_of_go (b := c.work.park n) rest hlt hp
  rw [hself] at hturns
  have hp : (c.work.park n).pieces.get? n = some ⟨name, true, rest⟩ := hp
  unfold Crew.turn
  dsimp only
  rw [hp]
  rcases hturns with ⟨left, work, hgo, hturns⟩ | ⟨ending, work, hgo, hturns⟩
  · obtain ⟨h, hsize, hkept⟩ := hturns.onward hpark
    have hline : (c.arrivals.filter (· ≠ n) ++ ([n] ++ aside)) ~
        [n] ++ (c.arrivals.filter (· ≠ n) ++ aside) := List.perm_append_comm_assoc _ _ _
    dsimp only
    rw [hgo]
    exact ⟨honward.trans h, hsize, { hkept with line := (hline.append_left _).trans hkept.line }⟩
  · obtain ⟨h, hsize, hkept⟩ := hturns.onward hpark
    dsimp only
    rw [hgo]
    exact ⟨honward.trans h, hsize, hkept⟩

theorem mem_line (c : Crew) : n ∈ c.line ↔ n ∈ c.work.ready ++ c.arrivals := by
  unfold line
  split
  · exact List.perm_append_comm.mem_iff
  · rfl

theorem isIdle_of_line_eq_nil (h : c.line = []) : c.isIdle = true := by
  unfold line at h
  unfold isIdle
  split at h <;> simp_all

theorem Kept.giveTurns (count : Nat) (hc : c.Kept aside) :
    c.work.Onward (giveTurns count aside c).2.work ∧
      (giveTurns count aside c).2.Kept (giveTurns count aside c).1 ∧
      (0 < count → c.isIdle = false → (giveTurns count aside c).2.size < c.size) := by
  induction count generalizing aside c with
  | zero => exact ⟨.refl _, hc, nofun⟩
  | succ count ih =>
    unfold Crew.giveTurns
    dsimp only
    split
    · next hline =>
      have hidle : c.isIdle = true :=
        isIdle_of_line_eq_nil (c := { c with turns := c.turns + 1 }) hline
      exact ⟨.refl _, hc, fun _ hbusy => by rw [hidle] at hbusy; cases hbusy⟩
    · next n rest hline =>
      have hn : n ∈ c.work.ready ++ c.arrivals :=
        (mem_line { c with turns := c.turns + 1 }).mp (hline ▸ List.mem_cons_self)
      obtain ⟨hturn, hlt, hkept⟩ :=
        Kept.turn (c := { c with turns := c.turns + 1 }) hc hn
      obtain ⟨hrest, hkept', _⟩ := ih hkept
      refine ⟨hturn.trans hrest, hkept', fun _ _ => ?_⟩
      exact Nat.lt_of_le_of_lt hrest.size_le hlt

/-! ## Rounds -/

/-- Who was set aside in a round is in line after it. -/
theorem Kept.round (hc : c.Kept []) :
    c.work.Onward c.round.work ∧ c.round.Kept [] ∧ (c.isIdle = false → c.round.size < c.size) := by
  obtain ⟨hwork, hkept, hlt⟩ := hc.giveTurns roundTurns
  refine ⟨hwork.trans (onward_lineUp _ _), { hkept with line := ?_ }, hlt (by decide)⟩
  refine List.Perm.trans ?_ hkept.line
  show (Crew.giveTurns roundTurns [] c).2.work.ready ++ (Crew.giveTurns roundTurns [] c).1 ++
    ((Crew.giveTurns roundTurns [] c).2.arrivals ++ []) ~ _
  rw [List.append_nil, List.append_assoc]
  exact List.perm_append_comm.append_left _

/-- Rounds are given until there is no reason for more, or nobody is in line. -/
theorem Kept.roundsFor (more : Crew → Bool) {fuel : Nat} (hc : c.Kept []) (hfuel : c.size ≤ fuel) :
    c.work.Onward (roundsFor more fuel c).work ∧ (roundsFor more fuel c).Kept [] ∧
      (more (roundsFor more fuel c) = true → (roundsFor more fuel c).isIdle = true) := by
  induction fuel generalizing c with
  | zero =>
    refine ⟨.refl _, hc, fun _ => ?_⟩
    by_contra hbusy
    have hlt := hc.round.2.2 (Bool.eq_false_iff.mpr hbusy)
    omega
  | succ fuel ih =>
    unfold Crew.roundsFor
    split
    · next hgoing =>
      rw [Bool.and_eq_true, Bool.not_eq_true'] at hgoing
      obtain ⟨hround, hkept, hlt⟩ := hc.round
      obtain ⟨hrest, hkept', hstop⟩ := ih hkept (by have := hlt hgoing.2; omega)
      exact ⟨hround.trans hrest, hkept', hstop⟩
    · next hstop =>
      refine ⟨.refl _, hc, fun hmore => ?_⟩
      rwa [hmore, Bool.true_and, Bool.not_eq_true', Bool.not_eq_false] at hstop

/-! ## The ends of scripts -/

theorem Kept.get?_of_isIdle (hc : c.Kept []) (h : c.isIdle = true) (n : Nat) :
    c.work.pieces.get? n = none := by
  rw [isIdle, Bool.and_eq_true, List.isEmpty_iff, List.isEmpty_iff] at h
  have hkeys := hc.line
  rw [h.1, h.2] at hkeys
  cases hp : c.work.pieces.get? n with
  | none => rfl
  | some p =>
    have hn := Directory.mem_keys_iff_get?.mpr ⟨p, hp⟩
    exact absurd (hkeys.mem_iff.mpr hn) List.not_mem_nil

/-- Once nobody is in line all scripts have ended. -/
theorem Kept.pump (hc : c.Kept []) :
    c.work.Onward c.pump.work ∧ c.pump.Kept [] ∧ ∀ n, c.pump.work.pieces.get? n = none := by
  obtain ⟨hwork, hkept, hidle⟩ := hc.roundsFor (fun _ => true) (Nat.le_refl c.size)
  exact ⟨hwork, hkept, hkept.get?_of_isIdle (hidle rfl)⟩

/-- Who is waited for ends. -/
theorem Kept.await (hc : c.Kept []) (n : Nat) :
    c.work.Onward (c.await n).work ∧ (c.await n).Kept [] ∧
      (c.await n).work.pieces.get? n = none := by
  obtain ⟨hwork, hkept, hstop⟩ :=
    hc.roundsFor (fun c => !c.work.endings.contains n) (Nat.le_refl c.size)
  refine ⟨hwork, hkept, ?_⟩
  by_cases hended : (c.await n).work.endings.contains n = true
  · exact ((hkept.ended n).mp hended).2
  · rw [Bool.not_eq_true, ← Bool.not_eq_true'] at hended
    exact hkept.get?_of_isIdle (hstop hended) n

/-- A script is waited for, and its crash is noted. -/
def settle (c : Crew) (n : Nat) : Crew :=
  { c.await n with work := (c.await n).work.noteCrash n }

theorem Kept.settle (hc : c.Kept []) (n : Nat) :
    c.work.Onward (c.settle n).work ∧ (c.settle n).Kept [] ∧
      (c.settle n).work.pieces.get? n = none := by
  obtain ⟨hwork, hkept, hnone⟩ := hc.await n
  obtain ⟨failures, hnote⟩ := (c.await n).work.exists_noteCrash n
  have hnote : (c.await n).work.noteCrash n = { (c.await n).work with failures } := hnote
  refine ⟨hwork.trans (onward_noteCrash _ n), ?_, ?_⟩
  · unfold Crew.settle Crew.Kept
    rw [hnote]
    exact { hkept with }
  · unfold Crew.settle
    rwa [hnote]

theorem Kept.settleAll (ns : List Nat) (hc : c.Kept []) (hns : ∀ n ∈ ns, n < c.work.started) :
    c.work.Onward (ns.foldl Crew.settle c).work ∧ (ns.foldl Crew.settle c).Kept [] ∧
      ∀ n ∈ ns, (ns.foldl Crew.settle c).work.pieces.get? n = none := by
  induction ns generalizing c with
  | nil => exact ⟨.refl _, hc, nofun⟩
  | cons n ns ih =>
    obtain ⟨hwork, hkept, hnone⟩ := hc.settle n
    have hle := hwork.started_le
    obtain ⟨hrest, hkept', hnone'⟩ := ih hkept fun m hm =>
      Nat.lt_of_lt_of_le (hns m (List.mem_cons_of_mem _ hm)) hle
    refine ⟨hwork.trans hrest, hkept', ?_⟩
    rw [List.forall_mem_cons]
    exact ⟨hrest.gone n (Nat.lt_of_lt_of_le (hns n List.mem_cons_self) hle) hnone, hnone'⟩

/-- The scripts that nobody has waited for are waited for. -/
def settleOutstanding (c : Crew) : Crew :=
  c.work.outstanding.foldl settle { c with work := c.work.takeOutstanding.2 }

/-- The scripts that are left then were started by others meanwhile, and have less to do. -/
theorem Kept.settleOutstanding {limit : Nat} (hc : c.Kept []) (howed : c.work.Owed 0)
    (hsmall : ∀ n p, c.work.pieces.get? n = some p → p.rest.size ≤ limit) :
    c.work.Works c.settleOutstanding.work ∧ c.settleOutstanding.Kept [] ∧
      c.settleOutstanding.work.Owed 0 ∧
      ∀ n p, c.settleOutstanding.work.pieces.get? n = some p → p.rest.size < limit := by
  let taken : Crew := { c with work := c.work.takeOutstanding.2 }
  have htaken : c.work.Works taken.work :=
    c.work.works_perform (a := .takeOutstanding) nofun rfl rfl
  have hkept : taken.Kept [] := { hc with outstanding_lt := fun _ => nofun }
  obtain ⟨hall, hkept', hgone⟩ := hkept.settleAll c.work.outstanding hc.outstanding_lt
  -- who was there before has been waited for, or had ended
  have hnew : ∀ n p, c.settleOutstanding.work.pieces.get? n = some p → c.work.started ≤ n := by
    intro n p hp
    by_contra hlt
    have hend : c.settleOutstanding.work.pieces.get? n = none := by
      cases hq : taken.work.pieces.get? n with
      | none => exact hall.gone n (Nat.lt_of_not_le hlt) hq
      | some q => exact hgone n (howed n q hq (Nat.zero_le n))
    rw [hend] at hp
    cases hp
  have hlarge : ∀ n p, taken.work.pieces.get? n = some p → ¬ taken.work.started ≤ n :=
    fun n p hp => Nat.not_le.mpr (hc.registered n p hp).1
  have howed' := hall.owed c.work.started fun n p hp hle => absurd hle (hlarge n p hp)
  have hsmall' := hall.small c.work.started limit fun n p hp =>
    ⟨hsmall n p hp, fun hle => absurd hle (hlarge n p hp)⟩
  exact ⟨htaken.trans hall.works, hkept', fun n p hp _ => howed' n p hp (hnew n p hp),
    fun n p hp => (hsmall' n p hp).2 (hnew n p hp)⟩

/-- It is enough to wait as often as the largest script has things to do. -/
theorem Kept.drainFor {limit fuel : Nat} (hc : c.Kept []) (howed : c.work.Owed 0)
    (hsmall : ∀ n p, c.work.pieces.get? n = some p → p.rest.size ≤ limit) (hfuel : limit ≤ fuel) :
    c.work.Works (drainFor fuel c).work ∧ (drainFor fuel c).Kept [] ∧
      ∀ n, (drainFor fuel c).work.pieces.get? n = none := by
  induction fuel generalizing c limit with
  | zero =>
    refine ⟨.refl _, hc, fun n => Option.eq_none_iff_forall_ne_some.mpr fun p hp => ?_⟩
    have hle := hsmall n p hp
    have hpos := p.rest.size_pos
    omega
  | succ fuel ih =>
    unfold Crew.drainFor
    split
    · next hout =>
      have hout : c.work.outstanding = [] := congrArg Prod.fst hout
      refine ⟨.refl _, hc, fun n => Option.eq_none_iff_forall_ne_some.mpr fun p hp => ?_⟩
      exact absurd (hout ▸ howed n p hp (Nat.zero_le n)) List.not_mem_nil
    · next htake =>
      obtain ⟨rfl, rfl⟩ := Prod.mk.inj htake
      obtain ⟨hworks, hkept, howed', hlt⟩ := hc.settleOutstanding howed hsmall
      have hfuel' : limit - 1 ≤ fuel := Nat.sub_le_of_le_add hfuel
      obtain ⟨hrest, hend⟩ := ih hkept howed'
        (fun n p hp => Nat.le_sub_one_of_lt (hlt n p hp)) hfuel'
      exact ⟨hworks.trans hrest, hend⟩

/-- Once all scripts have been waited for all of them have ended. -/
theorem Kept.drain (hc : c.Kept []) (howed : c.work.Owed 0) :
    c.work.Works c.drain.work ∧ c.drain.Kept [] ∧ ∀ n, c.drain.work.pieces.get? n = none := by
  have hsmall : ∀ n p, c.work.pieces.get? n = some p → p.rest.size ≤ c.size := by
    intro n p hp
    have hsize : c.size = _ := size_eq hc.distinct hp
    omega
  exact hc.drainFor howed hsmall (Nat.le_add_right _ _)

/-! ## Starting from outside -/

theorem Kept.start (hc : c.Kept []) (name : String) (s : Script) : (c.start name s).2.Kept [] := by
  have hkept := Background.Kept.start hc name s
  refine { hkept with line := List.Perm.trans ?_ hkept.line }
  show c.work.ready ++ (c.arrivals ++ [c.work.started] ++ []) ~
    c.work.ready ++ [c.work.started] ++ (c.arrivals ++ [])
  rw [List.append_nil, List.append_nil, List.append_assoc]
  exact List.perm_append_comm.append_left _

end Crew

end GeoAssets
