import GeoAssets.Background.Basic
import GeoAssets.Proofs.Directory
import Mathlib.Data.List.DropRight

/-!
# Failures of background work

Pieces of work may be taken up, go on and end in any order, and their failures may be taken at any
time. Of all that happens to work only some matters to the log: that watched work ends with a
result, that somebody comes upon work that ended without one, and that failures are taken
(`Background.Happening`). From these the log is known: it holds the last of the failures that were
recorded since failures were taken (`FailureLog.KeepsLast`).
-/

namespace GeoAssets

/-! ## The log -/

namespace FailureLog

/-- The log holds the last of the failures that were recorded, oldest first, as many as it may. So
it loses none as long as there are not as many newer ones. -/
structure KeepsLast (l : FailureLog) (recorded : List Failure) : Prop where
  last : l.failures = recorded.rtake (min recorded.length 256)
  bounded : l.failures.length ≤ 256
  kept : ∀ older f newer, recorded = older ++ f :: newer → newer.length < 256 →
    f :: newer <:+ l.failures

variable {l : FailureLog} {recorded : List Failure}

theorem keepsLast_of_eq (h : l.failures = recorded.rtake capacity) : l.KeepsLast recorded := by
  have hdrop : l.failures = recorded.drop (recorded.length - 256) := by
    rwa [List.rtake, capacity] at h
  have hmin : recorded.length - min recorded.length 256 = recorded.length - 256 := by omega
  refine ⟨?_, ?_, fun older f newer hrecorded hnewer => ?_⟩
  · rw [hdrop, List.rtake, hmin]
  · rw [hdrop, List.length_drop]
    omega
  · have hle : recorded.length - 256 ≤ older.length := by
      rw [hrecorded, List.length_append, List.length_cons]
      omega
    rw [hdrop, hrecorded, List.drop_append_of_le_length (by rwa [← hrecorded])]
    exact List.suffix_append _ _

/-- A failure comes in at the end, and the oldest one goes out if the log is full. -/
theorem failures_record (h : l.failures = recorded.rtake capacity) (f : Failure) :
    (l.record f).failures = (recorded ++ [f]).rtake capacity := by
  have hdrop : l.failures = recorded.drop (recorded.length - 256) := by
    rwa [List.rtake, capacity] at h
  have hlength : l.failures.length = recorded.length - (recorded.length - 256) := by
    rw [hdrop, List.length_drop]
  have hnew : (recorded ++ [f]).rtake capacity = recorded.drop (recorded.length - 255) ++ [f] :=
    List.rtake_concat_succ recorded 255 f
  unfold record
  rw [hnew]
  split
  · next hfull =>
    have hfull : l.failures.length = 256 := hfull
    have hnext : recorded.length - 256 + 1 = recorded.length - 255 := by omega
    show l.failures.tail ++ [f] = _
    rw [hdrop, List.tail_drop, hnext]
  · next hroom =>
    have hroom : l.failures.length ≠ 256 := hroom
    have hall : recorded.length - 256 = recorded.length - 255 := by omega
    show l.failures ++ [f] = _
    rw [hdrop, hall]

end FailureLog

namespace Background

variable {π α : Type}

/-! ## What happens to work -/

/-- What is done to background work. -/
inductive Act (π α : Type) where
  | register (name : String) (isWatched : Bool) (rest : π)
  /-- The line of the pieces that can go on is changed. -/
  | lineUp (ready : List Nat)
  | setRest (n : Nat) (rest : π)
  | conclude (n : Nat) (ending : Ending α)
  | takeOutstanding
  | noteCrash (n : Nat)
  | takeFailures

/-- The background after something was done to it. -/
def perform (b : Background π α) : Act π α → Background π α
  | .register name isWatched rest => (b.register name isWatched rest).2
  | .lineUp ready => { b with ready }
  | .setRest n rest => b.setRest n rest
  | .conclude n ending => b.conclude n ending
  | .takeOutstanding => b.takeOutstanding.2
  | .noteCrash n => b.noteCrash n
  | .takeFailures => b.takeFailures.2

/-- The background after several acts. -/
def after (b : Background π α) (acts : List (Act π α)) : Background π α :=
  acts.foldl perform b

/-- What matters to the failure log. -/
inductive Happening (α : Type) where
  /-- Watched work ends with a result. -/
  | ended (name : String) (result : Except Error α)
  /-- Somebody comes upon work that ended without a result. -/
  | foundCrash (message : String)
  /-- The failures are taken. -/
  | taken

/-- What an act means to the failure log. -/
def happening? (b : Background π α) : Act π α → Option (Happening α)
  | .conclude n (.returned result) =>
    ((b.pieces.get? n).filter (·.isWatched)).map fun piece => .ended piece.name result
  | .noteCrash n =>
    match b.endings.get? n with
    | some (.crashed message) => some (.foundCrash message)
    | _ => none
  | .takeFailures => some .taken
  | _ => none

/-- What happens, act by act, as far as it matters to the failure log. -/
def history (b : Background π α) : List (Act π α) → List (Happening α)
  | [] => []
  | a :: rest => (b.happening? a).toList ++ (b.perform a).history rest

namespace Happening

/-- Decides whether failures are taken. -/
def isTaken : Happening α → Bool
  | .taken => true
  | .ended .. | .foundCrash _ => false

/-- The failure that is to be recorded: work fails with the wording of its error. Who comes upon a
crash knows how the work ended, but not its name. -/
def failure? : Happening α → Option Failure
  | .ended name (.error e) => some ⟨name, e.message⟩
  | .foundCrash message => some ⟨"unknown", message⟩
  | .ended _ (.ok _) | .taken => none

/-- The failures that are to be recorded since failures were taken, oldest first. -/
def recorded (hs : List (Happening α)) : List Failure :=
  (hs.rtakeWhile (!·.isTaken)).filterMap failure?

/-- The log after something happened. -/
def enter (h : Happening α) (l : FailureLog) : FailureLog :=
  if h.isTaken then {} else h.failure?.elim l l.record

theorem recorded_concat (hs : List (Happening α)) (h : Happening α) :
    recorded (hs ++ [h]) = if h.isTaken then [] else recorded hs ++ h.failure?.toList := by
  unfold recorded
  rw [List.rtakeWhile_concat]
  cases h.isTaken with
  | true => rfl
  | false =>
    show ((hs.rtakeWhile _) ++ [h]).filterMap failure? = _
    rw [List.filterMap_append]
    cases hf : h.failure? <;> simp [hf]

/-- What happens leaves the last failures in the log. -/
theorem failures_enter {l : FailureLog} {hs : List (Happening α)}
    (h : l.failures = (recorded hs).rtake FailureLog.capacity) (next : Happening α) :
    (next.enter l).failures = (recorded (hs ++ [next])).rtake FailureLog.capacity := by
  unfold enter
  rw [recorded_concat]
  cases next.isTaken with
  | true => exact (List.rtake_nil _).symm
  | false =>
    cases hf : next.failure? with
    | none => simpa using h
    | some f => exact FailureLog.failures_record h f

end Happening

/-! ## Runs -/

theorem after_concat (b : Background π α) (acts : List (Act π α)) (a : Act π α) :
    b.after (acts ++ [a]) = (b.after acts).perform a :=
  List.foldl_concat ..

theorem after_append (b : Background π α) (acts acts' : List (Act π α)) :
    b.after (acts ++ acts') = (b.after acts).after acts' :=
  List.foldl_append

theorem history_append (b : Background π α) (acts acts' : List (Act π α)) :
    b.history (acts ++ acts') = b.history acts ++ (b.after acts).history acts' := by
  induction acts generalizing b with
  | nil => rfl
  | cons a acts ih =>
    rw [List.cons_append, history, ih, history, List.append_assoc]
    rfl

theorem history_concat (b : Background π α) (acts : List (Act π α)) (a : Act π α) :
    b.history (acts ++ [a]) = b.history acts ++ ((b.after acts).happening? a).toList := by
  rw [history_append, history, history, List.append_nil]

/-! ## Pieces -/

/-- Decides whether a piece is started. -/
def Act.isStart : Act π α → Bool
  | .register .. => true
  | _ => false

/-- The work with a number, counted from 0, was started under a name, and it has not ended since. -/
def IsGoingOn (acts : List (Act π α)) (n : Nat) (name : String) (isWatched : Bool) : Prop :=
  ∃ earlier rest later, acts = earlier ++ .register name isWatched rest :: later ∧
    earlier.countP Act.isStart = n ∧ ∀ ending, .conclude n ending ∉ later

/-- There is a piece with a number, a name and the right to have its failure kept. -/
def HasPiece (b : Background π α) (n : Nat) (name : String) (isWatched : Bool) : Prop :=
  ∃ rest, b.pieces.get? n = some ⟨name, isWatched, rest⟩

variable {b b' b'' : Background π α} {acts : List (Act π α)} {a : Act π α} {n : Nat}
  {name : String} {isWatched : Bool}

theorem IsGoingOn.lt (h : IsGoingOn acts n name isWatched) : n < acts.countP Act.isStart := by
  obtain ⟨earlier, rest, later, rfl, rfl, _⟩ := h
  rw [List.countP_append, List.countP_cons_of_pos rfl]
  omega

/-- Work goes on that is being started, and work that went on and is not being ended. -/
theorem isGoingOn_concat : IsGoingOn (acts ++ [a]) n name isWatched ↔
    (acts.countP Act.isStart = n ∧ ∃ rest, a = .register name isWatched rest) ∨
      (IsGoingOn acts n name isWatched ∧ ∀ ending, a ≠ .conclude n ending) := by
  constructor
  · rintro ⟨earlier, rest, later, hacts, hn, hlater⟩
    -- the last act starts the work, or it comes after the start
    rcases List.eq_nil_or_concat later with rfl | ⟨later, a', rfl⟩
    · obtain ⟨rfl, ha⟩ := List.append_inj' hacts rfl
      exact Or.inl ⟨hn, rest, List.singleton_inj.mp ha⟩
    · rw [List.concat_eq_append, ← List.cons_append, ← List.append_assoc] at hacts
      obtain ⟨rfl, ha⟩ := List.append_inj' hacts rfl
      obtain rfl := List.singleton_inj.mp ha
      refine Or.inr ⟨⟨earlier, rest, later, rfl, hn, fun ending hmem => ?_⟩, fun ending ha => ?_⟩
      · exact hlater ending (by simp [hmem])
      · exact hlater ending (by simp [ha])
  · rintro (⟨hn, rest, rfl⟩ | ⟨⟨earlier, rest, later, rfl, hn, hlater⟩, ha⟩)
    · exact ⟨acts, rest, [], rfl, hn, fun _ => List.not_mem_nil⟩
    · refine ⟨earlier, rest, later ++ [a], by simp, hn, fun ending hmem => ?_⟩
      rcases List.mem_append.mp hmem with hmem | hmem
      · exact hlater ending hmem
      · exact ha ending (List.mem_singleton.mp hmem).symm

/-- To note a crash changes at most the log. -/
theorem exists_noteCrash (b : Background π α) (n : Nat) :
    ∃ failures, b.perform (.noteCrash n) = { b with failures } := by
  show ∃ failures, b.noteCrash n = { b with failures }
  unfold noteCrash
  split
  · exact ⟨_, rfl⟩
  · exact ⟨_, rfl⟩

theorem started_after (acts : List (Act π α)) :
    (({} : Background π α).after acts).started = acts.countP Act.isStart := by
  induction acts using List.reverseRecOn with
  | nil => rfl
  | append_singleton acts a ih =>
    rw [after_concat, List.countP_append, ← ih]
    cases a with
    | noteCrash n =>
      obtain ⟨failures, hnote⟩ := exists_noteCrash (({} : Background π α).after acts) n
      rw [hnote]
      rfl
    | register | lineUp | setRest | conclude | takeOutstanding | takeFailures => rfl

/-- An act starts a piece under the next number, or ends one, or leaves all of them there. -/
theorem hasPiece_perform (b : Background π α) (a : Act π α) :
    (b.perform a).HasPiece n name isWatched ↔
      (b.started = n ∧ ∃ rest, a = .register name isWatched rest) ∨
        (b.HasPiece n name isWatched ∧ (∀ ending, a ≠ .conclude n ending) ∧
          (a.isStart → b.started ≠ n)) := by
  unfold HasPiece
  cases a with
  | register name' isWatched' rest =>
    show (∃ _, (b.pieces.insert b.started _).get? n = _) ↔ _
    rw [Directory.get?_insert]
    by_cases hn : b.started = n
    · simp [hn, Act.isStart, eq_comm]
    · simp [hn]
  | setRest m rest =>
    show (∃ _, (b.pieces.modify m _).get? n = _) ↔ _
    rw [Directory.get?_modify]
    by_cases hn : n = m
    · subst hn
      rcases b.pieces.get? n with _ | ⟨_, _, _⟩ <;> simp [Act.isStart]
    · simp [hn, Act.isStart]
  | conclude m ending =>
    show (∃ _, (b.pieces.erase m).get? n = _) ↔ _
    rw [Directory.get?_erase]
    by_cases hn : m = n
    · simp [hn]
    · simp [hn, Act.isStart]
  | noteCrash m =>
    obtain ⟨failures, hnote⟩ := b.exists_noteCrash m
    rw [hnote]
    simp [Act.isStart]
  | lineUp | takeOutstanding | takeFailures =>
    simp [perform, takeOutstanding, takeFailures, Act.isStart]

/-- The pieces are the work that was started and has not ended, under the names it was given. -/
theorem hasPiece_after_iff : (({} : Background π α).after acts).HasPiece n name isWatched ↔
    IsGoingOn acts n name isWatched := by
  induction acts using List.reverseRecOn with
  | nil => simp [HasPiece, IsGoingOn, after, Directory.get?, Directory.find?]
  | append_singleton acts a ih =>
    rw [after_concat, hasPiece_perform, isGoingOn_concat, started_after, ih]
    -- the number of work that goes on is not given again
    have hnew (h : IsGoingOn acts n name isWatched) : a.isStart → acts.countP Act.isStart ≠ n :=
      fun _ => h.lt.ne'
    tauto

/-! ## The log of a run -/

/-- The log is changed by what happens and by nothing else. -/
theorem failures_perform (b : Background π α) (a : Act π α) :
    (b.perform a).failures = (b.happening? a).elim b.failures (·.enter b.failures) := by
  cases a with
  | conclude n ending =>
    show ((b.pieces.get? n).bind (failure? · ending)).elim b.failures b.failures.record = _
    cases hp : b.pieces.get? n with
    | none => cases ending <;> simp [happening?, hp]
    | some piece =>
      cases hw : piece.isWatched with
      | false => rcases ending with (e | x) | _ <;>
          simp [happening?, failure?, hp, hw, Option.filter]
      | true =>
        rcases ending with (e | x) | _ <;>
          simp [happening?, failure?, hp, hw, Happening.enter, Happening.isTaken,
            Happening.failure?, Option.filter]
  | noteCrash n =>
    simp only [perform, noteCrash, happening?]
    rcases b.endings.get? n with _ | (_ | _)
    · rfl
    · rfl
    · rfl
  | register | lineUp | setRest | takeOutstanding | takeFailures => rfl

/-- Whatever is done to work, the log holds the last failures since they were taken. -/
theorem failures_after (acts : List (Act π α)) :
    (({} : Background π α).after acts).failures.failures =
      (Happening.recorded (({} : Background π α).history acts)).rtake FailureLog.capacity := by
  induction acts using List.reverseRecOn with
  | nil => exact (List.rtake_nil _).symm
  | append_singleton acts a ih =>
    rw [after_concat, history_concat, failures_perform]
    cases (({} : Background π α).after acts).happening? a with
    | none => rwa [Option.toList_none, List.append_nil]
    | some next => exact Happening.failures_enter ih next

theorem keepsLast_failures (acts : List (Act π α)) :
    (({} : Background π α).after acts).failures.KeepsLast
      (Happening.recorded (({} : Background π α).history acts)) :=
  FailureLog.keepsLast_of_eq (failures_after acts)

/-- Every history is that of some acts: each piece is started, ends and is found right away. -/
theorem exists_history (hs : List (Happening α)) :
    ∃ acts : List (Act Unit α), ({} : Background Unit α).history acts = hs := by
  induction hs using List.reverseRecOn with
  | nil => exact ⟨[], rfl⟩
  | append_singleton hs next ih =>
    obtain ⟨acts, hacts⟩ := ih
    cases next with
    | ended name result =>
      refine ⟨acts ++ [.register name true ()] ++
        [.conclude (({} : Background Unit α).after acts).started (.returned result)], ?_⟩
      rw [history_concat, history_concat, hacts, after_concat]
      simp [perform, register, happening?, Directory.get?_insert_self, Option.filter]
    | foundCrash message =>
      refine ⟨acts ++ [.conclude 0 (.crashed message)] ++ [.noteCrash 0], ?_⟩
      rw [history_concat, history_concat, hacts, after_concat]
      simp [perform, conclude, happening?, Directory.get?_insert_self]
    | taken =>
      refine ⟨acts ++ [.takeFailures], ?_⟩
      rw [history_concat, hacts]
      rfl

/-! ## Acts that take no failures -/

/-- One background becomes the other by acts that take no failures. -/
def Proceeds (b b' : Background π α) : Prop :=
  ∃ acts : List (Act π α), .takeFailures ∉ acts ∧ b' = b.after acts

theorem Proceeds.refl (b : Background π α) : b.Proceeds b :=
  ⟨[], List.not_mem_nil, rfl⟩

theorem Proceeds.trans (h : b.Proceeds b') (h' : b'.Proceeds b'') : b.Proceeds b'' := by
  obtain ⟨acts, hacts, rfl⟩ := h
  obtain ⟨acts', hacts', rfl⟩ := h'
  refine ⟨acts ++ acts', ?_, (after_append b acts acts').symm⟩
  rw [List.mem_append]
  exact not_or_intro hacts hacts'

theorem proceeds_perform (b : Background π α) (ha : a ≠ .takeFailures) :
    b.Proceeds (b.perform a) :=
  ⟨[a], by simpa using ha.symm, rfl⟩

theorem proceeds_lineUp (b : Background π α) (ready : List Nat) : b.Proceeds { b with ready } :=
  b.proceeds_perform (a := .lineUp ready) nofun

theorem proceeds_start (b : Background π α) (name : String) (isWatched : Bool) (rest : π) :
    b.Proceeds (b.start name isWatched rest).2 :=
  (b.proceeds_perform (a := .register name isWatched rest) nofun).trans (proceeds_lineUp _ _)

theorem proceeds_setRest (b : Background π α) (n : Nat) (rest : π) :
    b.Proceeds (b.setRest n rest) :=
  b.proceeds_perform (a := .setRest n rest) nofun

theorem proceeds_conclude (b : Background π α) (n : Nat) (ending : Ending α) :
    b.Proceeds (b.conclude n ending) :=
  b.proceeds_perform (a := .conclude n ending) nofun

end Background

end GeoAssets
