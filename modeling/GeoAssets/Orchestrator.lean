import GeoAssets.Background.Basic
import GeoAssets.Lifecycle.Locks
import GeoAssets.Lifecycle.Requests

/-!
# The orchestrator

The world together with the work in the background and the locks of assets. Requests change the
world at once; work goes on step by step, and `advance` lets any piece of it take its next step. A
step that needs a lock which somebody else holds is not taken; the piece stands in line for the lock
instead and goes on when the lock is free.

`settleDown` lets everything in the line go on, first come, first served, until nothing is left to
do or all that is left waits for locks of callers.
-/

namespace GeoAssets

/-- Who may hold the lock of an asset. -/
inductive LockUser where
  /-- A caller that settles nothing but keeps others from it. -/
  | caller (asset : AssetId)
  /-- A piece of work in the background. -/
  | piece (number : Nat)
  deriving DecidableEq, Repr

/-- The world with the work in the background and the locks of assets. -/
structure Orchestrator where
  world : World
  locks : LockTable LockUser := {}
  background : Background Activity Answer := {}

namespace Orchestrator

/-! ## Requests -/

/-- Makes a request. -/
def request {α : Type} (o : Orchestrator) (f : Flow α) : Except Error α × Orchestrator :=
  let (result, world) := f.run o.world
  (result, { o with world })

/-- Starts work that goes on after a request. Gives the number of the piece. -/
def startWork (o : Orchestrator) (work : Work) : Nat × Orchestrator :=
  let (n, background) := o.background.start work.name true work.activity
  (n, { o with background })

/-- Starts an activity that a caller waits for. Gives the number of the piece. -/
def startCall (o : Orchestrator) (name : String) (a : Activity) : Nat × Orchestrator :=
  let (n, background) := o.background.start name false a
  (n, { o with background })

/-! ## Locks -/

/-- The piece that holds the lock of an asset can go on. -/
def wakeHolder (o : Orchestrator) (a : AssetId) : Orchestrator :=
  match o.locks.holder? a with
  | some (.piece n) => { o with background := o.background.wake n }
  | some (.caller _) | none => o

/-- Gives up the lock of an asset; whoever is next in line can go on. -/
def unlock (o : Orchestrator) (a : AssetId) (user : LockUser) : Orchestrator :=
  ({ o with locks := o.locks.leave user } : Orchestrator).wakeHolder a

/-- A caller stands in line for the lock of an asset. -/
def hold (o : Orchestrator) (a : AssetId) : Orchestrator :=
  { o with locks := o.locks.request a (.caller a) }

/-- A caller gives up the lock of an asset, or its place in the line. -/
def release (o : Orchestrator) (a : AssetId) : Orchestrator :=
  o.unlock a (.caller a)

/-- Decides whether a caller stands in line for the lock of an asset. -/
def isHeld (o : Orchestrator) (a : AssetId) : Bool :=
  (o.locks.line a).contains (.caller a)

/-- Decides whether callers hold locks. -/
def hasCallers (o : Orchestrator) : Bool :=
  o.locks.holders.any fun user => user matches .caller _

/-! ## Going on -/

/-- Takes the next step of a piece. -/
def takeStep (o : Orchestrator) (n : Nat) (a : Activity) : Orchestrator :=
  match a.step.run o.world with
  | (.ok (.goOn rest), world) =>
    { o with world, background := o.background.setRest n rest }
  | (.ok (.finished answer), world) =>
    { o with world, background := o.background.conclude n (.returned (.ok answer)) }
  | (.error e, world) =>
    { o with world, background := o.background.conclude n (.returned (.error e)) }

/-- Makes a piece wait for the lock of an asset. -/
def waitFor (o : Orchestrator) (n : Nat) (a : AssetId) : Orchestrator :=
  { o with
    locks := o.locks.request a (.piece n)
    background := o.background.park n }

/-- Lets a piece take its next step, or wait for the lock that it needs. -/
def advance (o : Orchestrator) (n : Nat) : Orchestrator :=
  match o.background.pieces.get? n with
  | none => { o with background := o.background.park n }
  | some piece =>
    match piece.rest.lock? with
    | none => o.takeStep n piece.rest
    | some a =>
      match o.locks.holder? a with
      | none => o.takeStep n piece.rest
      | some user =>
        if user = .piece n then (o.takeStep n piece.rest).unlock a user else o.waitFor n a

/-- The number of steps that are left, at most. -/
def stepsLeft (o : Orchestrator) : Nat :=
  o.background.pieces.total (·.rest.rank)

/-- Lets the line go on, at most a number of times. -/
def goOnFor : Nat → Orchestrator → Orchestrator
  | 0, o => o
  | fuel + 1, o =>
    match o.background.ready with
    | [] => o
    | n :: _ => goOnFor fuel (o.advance n)

/-- Lets everything in the line go on. A step may bring one other piece into the line, and a piece
that takes no step leaves it. -/
def settleDown (o : Orchestrator) : Orchestrator :=
  goOnFor (2 * o.stepsLeft + o.background.ready.length) o

/-! ## Calls -/

/-- The result of an ended piece. -/
def result? (o : Orchestrator) (n : Nat) : Option (Except Error Answer) :=
  (o.background.endings.get? n).map (·.result "")

/-- Lets one piece go on alone, at most a number of times, until it ends or waits. -/
def advanceFor : Nat → Nat → Orchestrator → Orchestrator
  | 0, _, o => o
  | fuel + 1, n, o =>
    if n ∈ o.background.ready then advanceFor fuel n (o.advance n) else o

/-- Runs an activity that a caller waits for. Nothing else goes on unless the activity waits for a
lock. Gives nothing if the lock is never free. -/
def call (o : Orchestrator) (name : String) (a : Activity) :
    Option (Except Error Answer) × Orchestrator :=
  let (n, o) := o.startCall name a
  let o := advanceFor (a.rank + 1) n o
  let o := if (o.result? n).isSome then o else o.settleDown
  (o.result? n, o)

end Orchestrator

end GeoAssets
