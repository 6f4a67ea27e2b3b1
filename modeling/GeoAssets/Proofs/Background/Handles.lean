import GeoAssets.Background.Handle
import GeoAssets.Proofs.Background.Rounds

/-!
# Failures of scripts

Whatever is asked of scripts and their handles comes down to acts on background work. Failures are
taken only when that is asked, so that the log of a run holds the last failures since then, however
the scripts took their turns (`Handles.keepsLast_after`). No script is lost: the results that have
been told and those that are still to come are those of the scripts that were started, and nothing
is still to come once all scripts have been waited for (`Handles.Recorded`).
-/

namespace GeoAssets

namespace Handles

open Background
open scoped List

/-- What may be asked of scripts and their handles. -/
inductive Command where
  | start (name : String) (work : Script)
  | completed (name : String)
  | wait (name : String)
  | drop (name : String)
  | pump
  | drain
  | takeFailures

/-- The handles after a command was obeyed. -/
def obey (h : Handles) : Command → Handles
  | .start name work => h.start name work
  | .completed name => h.completed name
  | .wait name => (h.wait name).2
  | .drop name => h.drop name
  | .pump => { h with crew := h.crew.pump }
  | .drain => { h with crew := h.crew.drain }
  | .takeFailures => { h with crew := h.crew.takeFailures.2 }

/-- The handles after several commands. -/
def after (h : Handles) (cs : List Command) : Handles :=
  cs.foldl obey h

/-- The results that come of a command: of the work that is started, and of what that starts. -/
def Command.results : Command → List (String × Except Error Unit)
  | .start name work => work.results name
  | .completed _ | .wait _ | .drop _ | .pump | .drain | .takeFailures => []

/-- The results of all work that comes of commands. -/
def due (cs : List Command) : List (String × Except Error Unit) :=
  cs.flatMap Command.results

/-- Acts that carry out commands: failures are taken where that is asked and nowhere else. -/
inductive CarriedOut : List Command → List (Act Script Unit) → Prop where
  | nil : CarriedOut [] []
  | take {cs : List Command} {acts : List (Act Script Unit)} (h : CarriedOut cs acts) :
    CarriedOut (cs ++ [.takeFailures]) (acts ++ [.takeFailures])
  | proceed {cs : List Command} {acts new : List (Act Script Unit)} {c : Command}
    (h : CarriedOut cs acts) (hc : c ≠ .takeFailures) (hnew : .takeFailures ∉ new) :
    CarriedOut (cs ++ [c]) (acts ++ new)

/-- What the log holds after commands, and which work has ended, is known from acts that carry them
out. -/
structure Recorded (cs : List Command) (acts : List (Act Script Unit)) : Prop where
  carriedOut : CarriedOut cs acts
  work : (({} : Handles).after cs).crew.work = ({} : Background Script Unit).after acts
  keepsLast : FailureLog.KeepsLast ⟨(({} : Handles).after cs).crew.failures⟩
    (Happening.recorded (({} : Background Script Unit).history acts))
  /-- The work that was started has ended with its result or is left to do. -/
  told : Happening.results (({} : Background Script Unit).history acts) ++
    (({} : Handles).after cs).crew.work.left ~ due cs
  /-- No work is left if all of it was waited for in the end. -/
  finished : ∀ earlier, cs = earlier ++ [.pump] ∨ cs = earlier ++ [.drain] →
    (({} : Handles).after cs).crew.work.pieces.values = []

/-! ## Obeying -/

/-- Every script that has not ended stands in line, and is going to be waited for. -/
structure Kept (h : Handles) : Prop where
  crew : h.crew.Kept []
  owed : h.crew.work.Owed 0

/-- Scripts that are not there need not be waited for. -/
theorem owed_of_none {b : Background Script Unit} (h : ∀ n, b.pieces.get? n = none) : b.Owed 0 := by
  intro n p hp
  rw [h n] at hp
  cases hp

theorem kept_empty : ({} : Handles).Kept where
  crew :=
    { distinct := List.nodup_nil
      line := .refl []
      registered := fun _ _ => nofun
      ended := fun n => by simp [Directory.contains, Directory.get?, Directory.find?]
      outstanding_lt := fun _ => nofun }
  owed := owed_of_none fun _ => rfl

theorem Kept.obey {h : Handles} (hh : h.Kept) (c : Command) : (h.obey c).Kept := by
  cases c with
  | start name work => exact ⟨hh.crew.start name work, hh.crew.owed_start hh.owed name work⟩
  | completed | drop => exact ⟨hh.crew, hh.owed⟩
  | wait name =>
    show (h.wait name).2.Kept
    unfold wait
    split
    · exact hh
    · exact ⟨hh.crew, hh.owed⟩
    · next n _ =>
      obtain ⟨honward, hkept, _⟩ := hh.crew.await n
      exact ⟨hkept, honward.owed 0 hh.owed⟩
  | pump =>
    obtain ⟨_, hkept, hnone⟩ := hh.crew.pump
    exact ⟨hkept, owed_of_none hnone⟩
  | drain =>
    obtain ⟨_, hkept, hnone⟩ := hh.crew.drain hh.owed
    exact ⟨hkept, owed_of_none hnone⟩
  | takeFailures => exact ⟨{ hh.crew with }, hh.owed⟩

/-- A command comes down to acts. They tell results that were left to be told or come of the
command. -/
theorem Kept.exists_acts {h : Handles} (hh : h.Kept) {c : Command} (hc : c ≠ .takeFailures) :
    ∃ new : List (Act Script Unit), .takeFailures ∉ new ∧
      (h.obey c).crew.work = h.crew.work.after new ∧
      Happening.results (h.crew.work.history new) ++ (h.obey c).crew.work.left ~
        c.results ++ h.crew.work.left := by
  cases c with
  | start name work =>
    refine ⟨[.register name true work], by simp, rfl, ?_⟩
    exact (values_start (Background.Kept.get?_started hh.crew) name work).flatMap_right _
  | completed | drop => exact Works.refl _
  | wait name =>
    show h.crew.work.Works (h.wait name).2.crew.work
    unfold wait
    split
    · exact .refl _
    · exact .refl _
    · exact (hh.crew.await _).1.works
  | pump => exact hh.crew.pump.1.works
  | drain => exact (hh.crew.drain hh.owed).1
  | takeFailures => exact absurd rfl hc

/-! ## Runs -/

theorem after_concat (h : Handles) (cs : List Command) (c : Command) :
    h.after (cs ++ [c]) = (h.after cs).obey c :=
  List.foldl_concat ..

theorem kept_after (cs : List Command) : (({} : Handles).after cs).Kept := by
  induction cs using List.reverseRecOn with
  | nil => exact kept_empty
  | append_singleton cs c ih =>
    rw [after_concat]
    exact ih.obey c

/-- What a command adds to what is told and left comes of the command. -/
theorem due_concat {told new left left' : List (String × Except Error Unit)} {cs : List Command}
    {c : Command} (h : told ++ left ~ due cs) (hnew : new ++ left' ~ c.results ++ left) :
    told ++ new ++ left' ~ due (cs ++ [c]) := by
  have hdue : due (cs ++ [c]) = due cs ++ c.results := by
    rw [due, List.flatMap_append, List.flatMap_singleton]
    rfl
  calc told ++ new ++ left'
    _ ~ told ++ (c.results ++ left) := by
      rw [List.append_assoc]
      exact hnew.append_left _
    _ ~ c.results ++ (told ++ left) := List.perm_append_comm_assoc _ _ _
    _ ~ c.results ++ due cs := h.append_left _
    _ ~ due cs ++ c.results := List.perm_append_comm
    _ ~ due (cs ++ [c]) := .of_eq hdue.symm

/-- Whatever is asked comes down to acts. The results that are told and those that are left come of
the commands. -/
theorem exists_acts (cs : List Command) : ∃ acts, CarriedOut cs acts ∧
    (({} : Handles).after cs).crew.work = ({} : Background Script Unit).after acts ∧
    Happening.results (({} : Background Script Unit).history acts) ++
      (({} : Handles).after cs).crew.work.left ~ due cs := by
  induction cs using List.reverseRecOn with
  | nil => exact ⟨[], .nil, rfl, .refl _⟩
  | append_singleton cs c ih =>
    obtain ⟨acts, hcarried, hwork, hleft⟩ := ih
    rw [after_concat]
    by_cases hc : c = .takeFailures
    · subst hc
      refine ⟨acts ++ [.takeFailures], hcarried.take, ?_, ?_⟩
      · rw [Background.after_concat, ← hwork]
        rfl
      · rw [history_concat, Happening.results_append]
        exact due_concat hleft (.refl _)
    · obtain ⟨new, hnew, heq, hleft'⟩ := (kept_after cs).exists_acts hc
      refine ⟨acts ++ new, hcarried.proceed hc hnew, by rw [heq, hwork, after_append], ?_⟩
      rw [history_append, Happening.results_append, ← hwork]
      exact due_concat hleft hleft'

/-- In every order of work and of taking failures, the log holds the last failures that were
recorded since failures were taken: in the background as such, where what ends is what was started
under its name and everything may happen; and for scripts, whatever was asked. -/
theorem keepsLast_after :
    (∀ (π α : Type) (acts : List (Act π α)),
      (({} : Background π α).after acts).failures.KeepsLast
        (Happening.recorded (({} : Background π α).history acts)) ∧
      ∀ n name isWatched, (({} : Background π α).after acts).HasPiece n name isWatched ↔
        IsGoingOn acts n name isWatched) ∧
    (∀ (α : Type) (hs : List (Happening α)),
      ∃ acts : List (Act Unit α), ({} : Background Unit α).history acts = hs) ∧
    ∀ cs : List Command, ∃ acts, Recorded cs acts := by
  refine ⟨fun π α acts => ⟨keepsLast_failures acts, fun _ _ _ => hasPiece_after_iff⟩,
    fun α hs => exists_history hs, fun cs => ?_⟩
  obtain ⟨acts, hcarried, hwork, htold⟩ := exists_acts cs
  refine ⟨acts, hcarried, hwork, ?_, htold, ?_⟩
  · rw [Crew.failures, hwork]
    exact keepsLast_failures acts
  · rintro earlier (rfl | rfl)
    · rw [after_concat]
      obtain ⟨_, hkept, hnone⟩ := (kept_after earlier).crew.pump
      exact hkept.distinct.values_eq_nil hnone
    · rw [after_concat]
      obtain ⟨_, hkept, hnone⟩ := (kept_after earlier).crew.drain (kept_after earlier).owed
      exact hkept.distinct.values_eq_nil hnone

/-- A script fails, and its failure is taken. Of the next two scripts, the one starts the other and
crashes, and the other one fails. -/
def failingScripts : List Command :=
  [.start "table" (.finish (.error (.collaborator "database" "no room"))), .pump, .takeFailures,
    .start "cache" (.start "tile" (.pause (.finish (.error (.collaborator "cluster" "busy"))))
      (.crash "out of memory")),
    .drain]

theorem failingScripts_recorded :
    (∃ acts, Recorded failingScripts acts) ∧
      (({} : Handles).after failingScripts).crew.failures =
        [⟨"unknown", "out of memory"⟩, ⟨"tile", "cluster error: busy"⟩] :=
  ⟨keepsLast_after.2.2 failingScripts, by decide +kernel⟩

end Handles

end GeoAssets
