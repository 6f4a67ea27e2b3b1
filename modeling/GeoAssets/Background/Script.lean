import GeoAssets.Background.Basic

/-!
# Scripts

The plainest work there is: a script says in advance how often it lets other work go first, what
work it starts, and how it ends.

Scripts go on in turns, and turns are given in rounds. What scripts have started stands in one line
and what was started from outside in another. The first line goes before the second, except for one
turn in many, so that nobody waits forever. A script that lets others go first is set aside until
the round ends, which it does when both lines are empty or many turns have been given; whoever was
set aside last is then the first to go back into line.
-/

namespace GeoAssets

/-- Work that is known in advance. -/
inductive Script where
  | finish (result : Except Error Unit)
  /-- Ends without a result. -/
  | crash (message : String)
  /-- Lets other work go first. -/
  | pause (rest : Script)
  /-- Starts other work. -/
  | start (name : String) (work rest : Script)
  deriving Inhabited

/-- Scripts in the background. -/
structure Crew where
  /-- The scripts; those that scripts have started are in its line. -/
  work : Background Script Unit := {}
  /-- The scripts that were started from outside and have had no turn, in line. -/
  arrivals : List Nat := []
  /-- How many turns there were to give. -/
  turns : Nat := 0

namespace Script

/-- The number of things to do in a script. -/
def size : Script → Nat
  | .finish _ | .crash _ => 1
  | .pause rest => rest.size + 1
  | .start _ work rest => work.size + rest.size

/-- A script that lets other work go first a number of times. -/
def pauses : Nat → Script → Script
  | 0, s => s
  | n + 1, s => .pause (pauses n s)

/-- Goes on with a script until it pauses or ends. Gives what is left, or how it ended. -/
def go : Script → Background Script Unit → (Script ⊕ Ending Unit) × Background Script Unit
  | .finish result, b => (.inr (.returned result), b)
  | .crash message, b => (.inr (.crashed message), b)
  | .pause rest, b => (.inl rest, b)
  | .start name work rest, b => rest.go (b.start name true work).2

end Script

namespace Crew

/-! ## Lines -/

/-- One turn in so many goes to what was started from outside. -/
def arrivalsPeriod : Nat := 31

/-- How many turns a round has at most. -/
def roundTurns : Nat := 61

/-- Starts a script from outside. Gives its number. -/
def start (c : Crew) (name : String) (s : Script) : Nat × Crew :=
  let (n, work) := c.work.register name true s
  (n, { c with work, arrivals := c.arrivals ++ [n] })

/-- Decides whether nobody is in line. -/
def isIdle (c : Crew) : Bool :=
  c.work.ready.isEmpty && c.arrivals.isEmpty

/-- Both lines in the order in which they go on. -/
def line (c : Crew) : List Nat :=
  if c.turns % arrivalsPeriod = 0 then c.arrivals ++ c.work.ready else c.work.ready ++ c.arrivals

/-- The number of things that all scripts have to do. -/
def size (c : Crew) : Nat :=
  c.work.pieces.total (·.rest.size)

/-! ## Turns -/

/-- The script has its turn. Gives the script if it pauses. -/
def turn (c : Crew) (n : Nat) : Option Nat × Crew :=
  let c := { c with work := c.work.park n, arrivals := c.arrivals.filter (· ≠ n) }
  match c.work.pieces.get? n with
  | none => (none, c)
  | some piece =>
    match piece.rest.go c.work with
    | (.inl rest, work) => (some n, { c with work := work.setRest n rest })
    | (.inr ending, work) => (none, { c with work := work.conclude n ending })

/-- Gives at most a number of turns. Gives the scripts that were set aside, the last one first. -/
def giveTurns : Nat → List Nat → Crew → List Nat × Crew
  | 0, aside, c => (aside, c)
  | count + 1, aside, c =>
    let c := { c with turns := c.turns + 1 }
    match c.line with
    | [] => (aside, c)
    | n :: _ =>
      let (paused, c) := c.turn n
      giveTurns count (paused.toList ++ aside) c

/-- Gives the turns of a round. -/
def round (c : Crew) : Crew :=
  let (aside, c) := giveTurns roundTurns [] c
  { c with work := { c.work with ready := c.work.ready ++ aside } }

/-! ## Rounds -/

/-- Goes on in rounds, at most a number of them, as long as there is a reason. -/
def roundsFor (more : Crew → Bool) : Nat → Crew → Crew
  | 0, c => c
  | fuel + 1, c => if more c && !c.isIdle then roundsFor more fuel c.round else c

/-- Goes on until nothing is left to do. Every round leaves less to do. -/
def pump (c : Crew) : Crew :=
  roundsFor (fun _ => true) c.size c

/-- Goes on until a script has ended. -/
def await (n : Nat) (c : Crew) : Crew :=
  roundsFor (fun c => !c.work.endings.contains n) c.size c

/-- Waits for the scripts that nobody has waited for, a number of times. -/
def drainFor : Nat → Crew → Crew
  | 0, c => c
  | fuel + 1, c =>
    match c.work.takeOutstanding with
    | ([], _) => c
    | (ns, work) =>
      drainFor fuel <| ns.foldl (fun c n =>
        let c := c.await n
        { c with work := c.work.noteCrash n }) { c with work }

/-- Waits for all scripts, also those that are started meanwhile. Whoever starts another script has
more to do than that script. -/
def drain (c : Crew) : Crew :=
  drainFor (c.size + 2) c

/-! ## Failures -/

/-- The last failures, oldest first. -/
def failures (c : Crew) : List Failure :=
  c.work.failures.failures

/-- Takes the failures out of the log. -/
def takeFailures (c : Crew) : List Failure × Crew :=
  let (taken, work) := c.work.takeFailures
  (taken, { c with work })

end Crew

end GeoAssets
