import GeoAssets.Background.Script
import GeoAssets.Proofs.Background.Failures

/-!
# Turns of scripts

A script that has its turn starts other scripts, and then lets others go first or ends. Whatever it
does comes down to acts on background work (`Background.Works`). The number of things that all
scripts have to do gets smaller, and the results that are told and those that are left are together
the results that there were before (`Background.Turns.onward`).
-/

namespace GeoAssets

/-- The results of a script that goes by a name and of the scripts that it starts. A script that
ends without a result has none. -/
def Script.results (name : String) : Script → List (String × Except Error Unit)
  | .finish result => [(name, result)]
  | .crash _ => []
  | .pause rest => rest.results name
  | .start other work rest => work.results other ++ rest.results name

theorem Script.size_pos (s : Script) : 0 < s.size := by
  induction s with
  | finish | crash => exact Nat.one_pos
  | pause rest => exact Nat.succ_pos _
  | start name work rest hwork => exact Nat.add_pos_left hwork _

namespace Background

open scoped List

variable {b b' b'' : Background Script Unit} {others : List Nat} {n k m limit : Nat}
  {p q : Piece Script} {name other : String} {isWatched : Bool} {rest work : Script}

/-! ## What is left to do -/

/-- The results of the scripts that have not ended, and of those that they are going to start. -/
def left (b : Background Script Unit) : List (String × Except Error Unit) :=
  b.pieces.values.flatMap fun p => p.rest.results p.name

/-- The number of things that all scripts have to do. -/
def size (b : Background Script Unit) : Nat :=
  b.pieces.total (·.rest.size)

/-- Every script that has not ended stands in line, or is one of some others, and does so once. -/
structure Kept (b : Background Script Unit) (others : List Nat) : Prop where
  distinct : b.pieces.Distinct
  line : (b.ready ++ others).Perm b.pieces.keys
  registered : ∀ n p, b.pieces.get? n = some p → n < b.started ∧ p.isWatched = true
  ended : ∀ n, b.endings.contains n = true ↔ n < b.started ∧ b.pieces.get? n = none
  outstanding_lt : ∀ n ∈ b.outstanding, n < b.started

/-- Of the scripts with large numbers, those that have not ended are going to be waited for. -/
def Owed (b : Background Script Unit) (k : Nat) : Prop :=
  ∀ n p, b.pieces.get? n = some p → k ≤ n → n ∈ b.outstanding

/-- No script has more to do than a limit, and those with large numbers have less to do. -/
def Small (b : Background Script Unit) (k limit : Nat) : Prop :=
  ∀ n p, b.pieces.get? n = some p → p.rest.size ≤ limit ∧ (k ≤ n → p.rest.size < limit)

/-! ## One script and the others -/

/-- The background without one of its scripts. -/
def without (b : Background Script Unit) (n : Nat) : Background Script Unit :=
  { b with pieces := b.pieces.erase n }

theorem left_perm (hd : b.pieces.Distinct) (hp : b.pieces.get? n = some p) :
    b.left.Perm (p.rest.results p.name ++ (b.without n).left) :=
  (hd.values_perm hp).flatMap_right _

theorem size_eq (hd : b.pieces.Distinct) (hp : b.pieces.get? n = some p) :
    b.size = p.rest.size + (b.without n).size :=
  Directory.total_eq_of_perm (hd.values_perm hp) _

theorem get?_setRest (b : Background Script Unit) (n : Nat) (rest : Script) (m : Nat) :
    (b.setRest n rest).pieces.get? m =
      if m = n then (b.pieces.get? m).map ({ · with rest }) else b.pieces.get? m :=
  Directory.get?_modify _ _ _ _

theorem get?_setRest_self (hp : b.pieces.get? n = some p) (rest : Script) :
    (b.setRest n rest).pieces.get? n = some { p with rest } := by
  rw [get?_setRest, if_pos rfl, hp, Option.map_some]

theorem cases_setRest (hq : (b.setRest n rest).pieces.get? m = some q) :
    b.pieces.get? m = some q ∨
      m = n ∧ ∃ q', b.pieces.get? m = some q' ∧ { q' with rest } = q := by
  rw [get?_setRest] at hq
  split at hq
  · next hm => exact .inr ⟨hm, Option.map_eq_some_iff.mp hq⟩
  · exact .inl hq

theorem without_setRest (b : Background Script Unit) (n : Nat) (rest : Script) :
    (b.setRest n rest).without n = b.without n := by
  unfold without setRest
  rw [Directory.erase_modify]

theorem size_setRest (hd : b.pieces.Distinct) (hp : b.pieces.get? n = some p) (rest : Script) :
    (b.setRest n rest).size + p.rest.size = b.size + rest.size := by
  have hsize := size_eq hd hp
  have hsize' := size_eq (hd.modify n _) (get?_setRest_self hp rest)
  rw [without_setRest] at hsize'
  dsimp only at hsize'
  omega

theorem left_setRest (hd : b.pieces.Distinct) (hp : b.pieces.get? n = some p) (rest : Script) :
    (p.rest.results p.name ++ (b.setRest n rest).left).Perm (rest.results p.name ++ b.left) := by
  have hleft := left_perm hd hp
  have hleft' := left_perm (hd.modify n _) (get?_setRest_self hp rest)
  rw [without_setRest] at hleft'
  calc p.rest.results p.name ++ (b.setRest n rest).left
    _ ~ p.rest.results p.name ++ (rest.results p.name ++ (b.without n).left) :=
      hleft'.append_left _
    _ ~ rest.results p.name ++ (p.rest.results p.name ++ (b.without n).left) :=
      List.perm_append_comm_assoc _ _ _
    _ ~ rest.results p.name ++ b.left := hleft.symm.append_left _

theorem setRest_setRest (b : Background Script Unit) (n : Nat) (rest rest' : Script) :
    (b.setRest n rest).setRest n rest' = b.setRest n rest' := by
  unfold setRest Directory.modify
  dsimp only
  rw [Directory.mapValues_mapValues]
  congr
  funext m p
  split <;> simp_all

theorem setRest_self (hd : b.pieces.Distinct) (hp : b.pieces.get? n = some p) :
    b.setRest n p.rest = b := by
  unfold setRest
  rw [hd.modify_eq hp rfl]

theorem conclude_setRest (b : Background Script Unit) (n : Nat) (rest : Script)
    (ending : Ending Unit) : (b.setRest n rest).conclude n ending = b.conclude n ending := by
  have hfailure : ((b.setRest n rest).pieces.get? n).bind (failure? · ending) =
      (b.pieces.get? n).bind (failure? · ending) := by
    rw [get?_setRest, if_pos rfl]
    rcases b.pieces.get? n with _ | p
    · rfl
    · cases ending with
      | returned result => cases result <;> rfl
      | crashed => rfl
  have herase : (b.setRest n rest).pieces.erase n = b.pieces.erase n := Directory.erase_modify ..
  unfold conclude
  dsimp only
  rw [hfailure, herase]
  rfl

/-! ## Starting another script -/

/-- The background once a script has started another one and has less left to do itself. -/
def afterStart (b : Background Script Unit) (n : Nat) (other : String) (work rest : Script) :
    Background Script Unit :=
  (b.start other true work).2.setRest n rest

theorem afterStart_setRest (b : Background Script Unit) (n : Nat) (other : String)
    (work rest rest' : Script) :
    (b.setRest n rest).afterStart n other work rest' = b.afterStart n other work rest' := by
  unfold afterStart start register setRest Directory.modify
  dsimp only
  rw [Directory.mapValues_insert, Directory.mapValues_mapValues, Directory.mapValues_insert]
  congr
  funext m p
  split <;> rfl

theorem Kept.get?_started (hb : b.Kept others) : b.pieces.get? b.started = none := by
  cases hp : b.pieces.get? b.started with
  | none => rfl
  | some p => exact absurd (hb.registered _ p hp).1 (Nat.lt_irrefl _)

theorem values_start (hnew : b.pieces.get? b.started = none) (other : String) (work : Script) :
    (b.start other true work).2.pieces.values.Perm (⟨other, true, work⟩ :: b.pieces.values) := by
  have hvalues := Directory.values_insert_of_none hnew (⟨other, true, work⟩ : Piece Script)
  exact (List.Perm.of_eq hvalues).trans (List.perm_append_singleton _ _)

theorem get?_start (b : Background Script Unit) (other : String) (work : Script) (m : Nat) :
    (b.start other true work).2.pieces.get? m =
      if b.started = m then some ⟨other, true, work⟩ else b.pieces.get? m :=
  Directory.get?_insert _ _ _ _

theorem Kept.get?_start_of_some (hb : b.Kept others) (hp : b.pieces.get? n = some p)
    (other : String) (work : Script) : (b.start other true work).2.pieces.get? n = some p := by
  rw [get?_start, if_neg (Nat.ne_of_gt (hb.registered n p hp).1), hp]

theorem cases_start (hq : (b.start other true work).2.pieces.get? m = some q) :
    b.pieces.get? m = some q ∨ b.started = m ∧ ⟨other, true, work⟩ = q := by
  rw [get?_start] at hq
  split at hq
  · next hm => exact .inr ⟨hm, Option.some.inj hq⟩
  · exact .inl hq

theorem Kept.start (hb : b.Kept others) (other : String) (work : Script) :
    (b.start other true work).2.Kept others where
  distinct := hb.distinct.insert _ _
  line := by
    have hkeys := Directory.keys_insert_of_none hb.get?_started (⟨other, true, work⟩ : Piece Script)
    show (b.ready ++ [b.started] ++ others).Perm (b.pieces.insert b.started _).keys
    rw [hkeys, List.append_assoc]
    refine (List.Perm.append_left _ List.perm_append_comm).trans ?_
    rw [← List.append_assoc]
    exact hb.line.append_right _
  registered := by
    intro m p hp
    show m < b.started + 1 ∧ _
    rcases cases_start hp with hp | ⟨rfl, rfl⟩
    · obtain ⟨hlt, hwatched⟩ := hb.registered m p hp
      exact ⟨Nat.lt_succ_of_lt hlt, hwatched⟩
    · exact ⟨Nat.lt_succ_self _, rfl⟩
  ended := by
    intro m
    show b.endings.contains m = true ↔ m < b.started + 1 ∧ _
    rw [get?_start, hb.ended]
    by_cases hm : b.started = m
    · simp [hm]
    · rw [if_neg hm]
      exact and_congr_left' (by omega)
  outstanding_lt := by
    intro m hm
    rcases List.mem_append.mp hm with hm | hm
    · exact Nat.lt_succ_of_lt (hb.outstanding_lt m (List.mem_filter.mp hm).1)
    · exact Nat.lt_succ_of_le (List.mem_singleton.mp hm).le

theorem Kept.setRest (hb : b.Kept others) (n : Nat) (rest : Script) :
    (b.setRest n rest).Kept others where
  distinct := hb.distinct.modify _ _
  line := by
    show (b.ready ++ others).Perm (b.pieces.modify n _).keys
    rw [Directory.keys_modify]
    exact hb.line
  registered := by
    intro m p hp
    rcases cases_setRest hp with hp | ⟨_, q, hq, rfl⟩
    · exact hb.registered m p hp
    · exact hb.registered m q hq
  ended := by
    intro m
    rw [get?_setRest]
    show b.endings.contains m = true ↔ _
    rw [hb.ended]
    split
    · rw [Option.map_eq_none_iff]
      rfl
    · rfl
  outstanding_lt := hb.outstanding_lt

theorem get?_conclude (b : Background Script Unit) (n : Nat) (ending : Ending Unit) (m : Nat) :
    (b.conclude n ending).pieces.get? m = if n = m then none else b.pieces.get? m :=
  Directory.get?_erase _ _ _

theorem of_get?_conclude {ending : Ending Unit}
    (hq : (b.conclude n ending).pieces.get? m = some q) : b.pieces.get? m = some q := by
  rw [get?_conclude] at hq
  split at hq
  · cases hq
  · exact hq

/-- A script that has ended does not stand in line any more. -/
theorem Kept.conclude (hb : b.Kept (n :: others)) (ending : Ending Unit) :
    (b.conclude n ending).Kept others where
  distinct := hb.distinct.erase _
  line := by
    have hline : (n :: (b.ready ++ others)).Perm b.pieces.keys :=
      List.perm_middle.symm.trans hb.line
    have hn := (List.nodup_cons.mp (hline.nodup_iff.mpr hb.distinct)).1
    have hothers : others.filter (· ≠ n) = others := List.filter_eq_self.mpr fun m hm =>
      decide_eq_true fun hmn => hn (List.mem_append_right _ (hmn ▸ hm))
    have hleft := hline.filter (· ≠ n)
    rw [List.filter_cons_of_neg (by simp), List.filter_append, hothers] at hleft
    show (b.ready.filter (· ≠ n) ++ others).Perm (b.pieces.erase n).keys
    rwa [Directory.keys_erase]
  registered := fun m p hp => hb.registered m p (of_get?_conclude hp)
  ended := by
    intro m
    show (b.endings.insert n ending).contains m = true ↔
      m < b.started ∧ (b.pieces.erase n).get? m = none
    rw [Directory.get?_erase, Directory.contains, Directory.get?_insert]
    by_cases hm : n = m
    · subst hm
      have hn : n ∈ b.pieces.keys := hb.line.mem_iff.mp (by simp)
      obtain ⟨p, hp⟩ := Directory.mem_keys_iff_get?.mp hn
      simp [(hb.registered n p hp).1]
    · rw [if_neg hm, if_neg hm]
      exact hb.ended m
  outstanding_lt := hb.outstanding_lt

/-! ## Scripts with large numbers -/

theorem Owed.setRest (h : b.Owed k) (n : Nat) (rest : Script) : (b.setRest n rest).Owed k := by
  intro m p hp hle
  rcases cases_setRest hp with hp | ⟨_, q, hq, rfl⟩
  · exact h m p hp hle
  · exact h m q hq hle

/-- A script that has not ended stays among those that are going to be waited for. -/
theorem Kept.owed_start (hb : b.Kept others) (h : b.Owed k) (other : String) (work : Script) :
    (b.start other true work).2.Owed k := by
  intro m p hp hle
  show m ∈ b.outstanding.filter (!b.endings.contains ·) ++ [b.started]
  rw [List.mem_append, List.mem_filter, List.mem_singleton]
  rcases cases_start hp with hp | ⟨rfl, rfl⟩
  · refine .inl ⟨h m p hp hle, ?_⟩
    rw [Bool.not_eq_true', ← Bool.not_eq_true, hb.ended, hp]
    exact fun hended => nomatch hended.2
  · exact .inr rfl

theorem Small.setRest (h : b.Small k limit) (hp : b.pieces.get? n = some p)
    (hle : rest.size ≤ p.rest.size) : (b.setRest n rest).Small k limit := by
  intro m q hq
  rcases cases_setRest hq with hq | ⟨rfl, _, _, rfl⟩
  · exact h m q hq
  · obtain ⟨hlimit, hlt⟩ := h m p hp
    exact ⟨Nat.le_trans hle hlimit, fun hkm => Nat.lt_of_le_of_lt hle (hlt hkm)⟩

theorem Small.start (h : b.Small k limit) (other : String) (hlt : work.size < limit) :
    (b.start other true work).2.Small k limit := by
  intro m q hq
  rcases cases_start hq with hq | ⟨_, rfl⟩
  · exact h m q hq
  · exact ⟨Nat.le_of_lt hlt, fun _ => hlt⟩

/-! ## Going on -/

/-- The result that is told if something happens. -/
def Happening.result? {α : Type} : Happening α → Option (String × Except Error α)
  | .ended name result => some (name, result)
  | .foundCrash _ | .taken => none

/-- The results that are told, in the order in which they are. -/
def Happening.results {α : Type} (hs : List (Happening α)) : List (String × Except Error α) :=
  hs.filterMap result?

theorem Happening.results_append {α : Type} (hs hs' : List (Happening α)) :
    results (hs ++ hs') = results hs ++ results hs' :=
  List.filterMap_append

/-- One background becomes the other by acts that take no failures. They tell the results that were
left to be told before and are not left any more. -/
def Works (b b' : Background Script Unit) : Prop :=
  ∃ acts : List (Act Script Unit), .takeFailures ∉ acts ∧ b' = b.after acts ∧
    (Happening.results (b.history acts) ++ b'.left).Perm b.left

theorem Works.refl (b : Background Script Unit) : b.Works b :=
  ⟨[], List.not_mem_nil, rfl, .refl _⟩

theorem Works.trans (h : b.Works b') (h' : b'.Works b'') : b.Works b'' := by
  obtain ⟨acts, hacts, rfl, hleft⟩ := h
  obtain ⟨acts', hacts', rfl, hleft'⟩ := h'
  refine ⟨acts ++ acts', ?_, (after_append b acts acts').symm, ?_⟩
  · rw [List.mem_append]
    exact not_or_intro hacts hacts'
  · rw [history_append, Happening.results_append, List.append_assoc]
    exact (hleft'.append_left _).trans hleft

/-- An act that tells nothing and leaves all scripts what they are. -/
theorem works_perform (b : Background Script Unit) {a : Act Script Unit} (ha : a ≠ .takeFailures)
    (htold : Happening.results (b.happening? a).toList = []) (hleft : (b.perform a).left = b.left) :
    b.Works (b.perform a) := by
  refine ⟨[a], by simpa using ha.symm, rfl, ?_⟩
  rw [history, history, List.append_nil, htold, hleft]
  exact .refl _

/-- Scripts go on: there is no more to do than there was, what has ended is not begun again, and if
all scripts with large numbers are going to be waited for, so are those that are started. -/
structure Onward (b b' : Background Script Unit) : Prop where
  works : b.Works b'
  started_le : b.started ≤ b'.started
  size_le : b'.size ≤ b.size
  gone : ∀ n < b.started, b.pieces.get? n = none → b'.pieces.get? n = none
  owed : ∀ k, b.Owed k → b'.Owed k
  small : ∀ k limit, b.Small k limit → b'.Small k limit

theorem Onward.refl (b : Background Script Unit) : b.Onward b where
  works := .refl b
  started_le := Nat.le_refl _
  size_le := Nat.le_refl _
  gone := fun _ _ h => h
  owed := fun _ h => h
  small := fun _ _ h => h

theorem Onward.trans (h : b.Onward b') (h' : b'.Onward b'') : b.Onward b'' where
  works := h.works.trans h'.works
  started_le := Nat.le_trans h.started_le h'.started_le
  size_le := Nat.le_trans h'.size_le h.size_le
  gone := fun n hn hnone => h'.gone n (Nat.lt_of_lt_of_le hn h.started_le) (h.gone n hn hnone)
  owed := fun k hk => h'.owed k (h.owed k hk)
  small := fun k limit hsmall => h'.small k limit (h.small k limit hsmall)

theorem onward_lineUp (b : Background Script Unit) (ready : List Nat) :
    b.Onward { b with ready } :=
  { Onward.refl b with works := b.works_perform (a := .lineUp ready) nofun rfl rfl }

theorem onward_noteCrash (b : Background Script Unit) (n : Nat) : b.Onward (b.noteCrash n) := by
  obtain ⟨failures, hnote⟩ := b.exists_noteCrash n
  have hworks : b.Works (b.perform (.noteCrash n)) := by
    refine b.works_perform nofun ?_ (by rw [hnote]; rfl)
    rw [happening?]
    split <;> rfl
  rw [show b.noteCrash n = _ from hnote]
  rw [hnote] at hworks
  exact { Onward.refl b with works := hworks }

/-- To start another script and to go on is as much as to have both to do. -/
theorem Kept.size_afterStart (hb : b.Kept others)
    (hp : b.pieces.get? n = some ⟨name, isWatched, .start other work rest⟩) :
    (b.afterStart n other work rest).size = b.size := by
  have hstart : (b.start other true work).2.size = work.size + b.size :=
    Directory.total_eq_of_perm (values_start hb.get?_started other work) _
  have hrest := size_setRest (hb.start other work).distinct (hb.get?_start_of_some hp _ _) rest
  have hboth : (Script.start other work rest).size = work.size + rest.size := rfl
  dsimp only at hrest
  unfold Background.afterStart
  omega

theorem Kept.left_afterStart (hb : b.Kept others)
    (hp : b.pieces.get? n = some ⟨name, isWatched, .start other work rest⟩) :
    (b.afterStart n other work rest).left.Perm b.left := by
  have hstart : (b.start other true work).2.left.Perm (work.results other ++ b.left) :=
    (values_start hb.get?_started other work).flatMap_right _
  have hrest := left_setRest (hb.start other work).distinct (hb.get?_start_of_some hp _ _) rest
  refine (List.perm_append_left_iff (work.results other ++ rest.results name)).mp ?_
  calc work.results other ++ rest.results name ++ (b.afterStart n other work rest).left
    _ ~ rest.results name ++ (b.start other true work).2.left := hrest
    _ ~ rest.results name ++ (work.results other ++ b.left) := hstart.append_left _
    _ ~ work.results other ++ (rest.results name ++ b.left) := List.perm_append_comm_assoc _ _ _
    _ ~ work.results other ++ rest.results name ++ b.left := .of_eq (List.append_assoc _ _ _).symm

theorem Kept.onward_afterStart (hb : b.Kept others)
    (hp : b.pieces.get? n = some ⟨name, isWatched, .start other work rest⟩) :
    b.Onward (b.afterStart n other work rest) where
  works :=
    ⟨[.register other true work, .lineUp (b.ready ++ [b.started]), .setRest n rest],
      by simp, rfl, hb.left_afterStart hp⟩
  started_le := Nat.le_succ _
  size_le := Nat.le_of_eq (hb.size_afterStart hp)
  gone := by
    intro m hm hnone
    rw [afterStart, get?_setRest, get?_start, if_neg (Nat.ne_of_gt hm), hnone, Option.map_none,
      ite_self]
  owed := fun k hk => (hb.owed_start hk other work).setRest n rest
  small := by
    intro k limit hk
    have hown := (hk n _ hp).1
    have hboth : (Script.start other work rest).size = work.size + rest.size := rfl
    have hrest := rest.size_pos
    dsimp only at hown
    exact (hk.start other (by omega)).setRest (hb.get?_start_of_some hp _ _)
      (hboth ▸ Nat.le_add_left _ _)

/-- To let others go first is one thing less to do. -/
theorem Kept.onward_pause (hb : b.Kept others)
    (hp : b.pieces.get? n = some ⟨name, isWatched, .pause rest⟩) :
    b.Onward (b.setRest n rest) ∧ (b.setRest n rest).size < b.size := by
  have hsize := size_setRest hb.distinct hp rest
  have hpause : (Script.pause rest).size = rest.size + 1 := rfl
  dsimp only at hsize
  have hlt : (b.setRest n rest).size < b.size := by omega
  have hleft := left_setRest hb.distinct hp rest
  refine ⟨?_, hlt⟩
  constructor
  case works =>
    exact ⟨[.setRest n rest], by simp, rfl, (List.perm_append_left_iff _).mp hleft⟩
  case started_le => exact Nat.le_refl _
  case size_le => exact Nat.le_of_lt hlt
  case gone =>
    intro m _ hnone
    rw [get?_setRest, hnone, Option.map_none, ite_self]
  case owed => exact fun k hk => hk.setRest n rest
  case small => exact fun k limit hk => hk.setRest hp (hpause ▸ Nat.le_succ _)

/-- To end is to have nothing more to do. -/
theorem Kept.onward_conclude (hb : b.Kept others) (hp : b.pieces.get? n = some p)
    (ending : Ending Unit)
    (htold : Happening.results (b.happening? (.conclude n ending)).toList = p.rest.results p.name) :
    b.Onward (b.conclude n ending) ∧ (b.conclude n ending).size < b.size := by
  have hsize : b.size = p.rest.size + (b.conclude n ending).size := size_eq hb.distinct hp
  have hpos := p.rest.size_pos
  have hlt : (b.conclude n ending).size < b.size := by omega
  refine ⟨?_, hlt⟩
  constructor
  case works =>
    refine ⟨[.conclude n ending], by simp, rfl, ?_⟩
    rw [history, history, List.append_nil, htold]
    exact (left_perm hb.distinct hp).symm
  case started_le => exact Nat.le_refl _
  case size_le => exact Nat.le_of_lt hlt
  case gone =>
    intro m _ hnone
    rw [get?_conclude, hnone, ite_self]
  case owed => exact fun k hk m q hq hkm => hk m q (of_get?_conclude hq) hkm
  case small => exact fun k limit hk m q hq => hk m q (of_get?_conclude hq)

/-! ## A turn -/

/-- A script has its turn: it starts others and then lets others go first, whereupon it is set
aside, or ends. -/
inductive Turns (n : Nat) : Background Script Unit → List Nat → Background Script Unit → Prop where
  | pause {b : Background Script Unit} {name : String} {isWatched : Bool} {rest : Script}
    (h : b.pieces.get? n = some ⟨name, isWatched, .pause rest⟩) :
    Turns n b [n] (b.setRest n rest)
  | finish {b : Background Script Unit} {name : String} {result : Except Error Unit}
    (h : b.pieces.get? n = some ⟨name, true, .finish result⟩) :
    Turns n b [] (b.conclude n (.returned result))
  | crash {b : Background Script Unit} {name message : String} {isWatched : Bool}
    (h : b.pieces.get? n = some ⟨name, isWatched, .crash message⟩) :
    Turns n b [] (b.conclude n (.crashed message))
  | start {b b' : Background Script Unit} {name other : String} {isWatched : Bool}
    {work rest : Script} {aside : List Nat}
    (h : b.pieces.get? n = some ⟨name, isWatched, .start other work rest⟩)
    (hrest : Turns n (b.afterStart n other work rest) aside b') : Turns n b aside b'

theorem Turns.onward {aside : List Nat} (h : Turns n b aside b') (hb : b.Kept (n :: others)) :
    b.Onward b' ∧ b'.size < b.size ∧ b'.Kept (aside ++ others) := by
  induction h with
  | pause h =>
    obtain ⟨honward, hlt⟩ := hb.onward_pause h
    exact ⟨honward, hlt, hb.setRest _ _⟩
  | @finish b name result h =>
    have htold : Happening.results (b.happening? (.conclude n (.returned result))).toList =
        [(name, result)] := by
      rw [happening?, h]
      rfl
    obtain ⟨honward, hlt⟩ := hb.onward_conclude h _ htold
    exact ⟨honward, hlt, hb.conclude _⟩
  | @crash b name message isWatched h =>
    obtain ⟨honward, hlt⟩ := hb.onward_conclude h (.crashed message) rfl
    exact ⟨honward, hlt, hb.conclude _⟩
  | start h _ ih =>
    obtain ⟨honward, hlt, hkept⟩ := ih ((hb.start _ _).setRest _ _)
    exact ⟨(hb.onward_afterStart h).trans honward, hb.size_afterStart h ▸ hlt, hkept⟩

/-- To go on with a script is to have a turn, for the piece that has the script to do. -/
theorem turns_of_go (s : Script) {rest : Script} (hlt : n < b.started)
    (hp : b.pieces.get? n = some ⟨name, true, rest⟩) :
    (∃ rest' b', s.go b = (.inl rest', b') ∧ Turns n (b.setRest n s) [n] (b'.setRest n rest')) ∨
      ∃ ending b', s.go b = (.inr ending, b') ∧
        Turns n (b.setRest n s) [] (b'.conclude n ending) := by
  have hs := get?_setRest_self hp
  induction s generalizing b rest with
  | finish result =>
    have h := Turns.finish (hs (.finish result))
    rw [conclude_setRest] at h
    exact .inr ⟨.returned result, b, rfl, h⟩
  | crash message =>
    have h := Turns.crash (hs (.crash message))
    rw [conclude_setRest] at h
    exact .inr ⟨.crashed message, b, rfl, h⟩
  | pause rest' _ =>
    have h := Turns.pause (hs (.pause rest'))
    rw [setRest_setRest] at h
    exact .inl ⟨rest', b, rfl, h⟩
  | start other work rest' _ ih =>
    have hp' : (b.start other true work).2.pieces.get? n = some ⟨name, true, rest⟩ := by
      rw [get?_start, if_neg (Nat.ne_of_gt hlt), hp]
    have hstart {aside : List Nat} {b' : Background Script Unit}
        (h : Turns n (b.afterStart n other work rest') aside b') :
        Turns n (b.setRest n (.start other work rest')) aside b' := by
      refine .start (hs _) ?_
      rwa [afterStart_setRest]
    rcases ih (Nat.lt_succ_of_lt hlt) hp' (get?_setRest_self hp') with
      ⟨left, b', hgo, hturns⟩ | ⟨ending, b', hgo, hturns⟩
    · exact .inl ⟨left, b', hgo, hstart hturns⟩
    · exact .inr ⟨ending, b', hgo, hstart hturns⟩

end Background

end GeoAssets
