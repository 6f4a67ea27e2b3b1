import GeoAssets.Background.FailureLog
import GeoAssets.Directory

/-!
# Background work

Work that goes on while nobody waits for it. Every piece of work has a number, under which its end
can be asked for later. Pieces that can go on stand in line; what it means to go on is left open
here, and so is what a piece gives at its end.

The failures of watched work are kept in a log. To wait for all work is to wait for the pieces that
have not been waited for yet, and then for those that were started in the meantime.
-/

namespace GeoAssets

/-! ## Pieces of work -/

/-- A piece of work that has not ended. -/
structure Piece (π : Type) where
  name : String
  /-- Its failure goes into the log. -/
  isWatched : Bool
  /-- What is left to do. -/
  rest : π
  deriving Repr

/-- How a piece of work ended. -/
inductive Ending (α : Type) where
  | returned (result : Except Error α)
  /-- It ended without a result; the message says how. -/
  | crashed (message : String)

/-- What a piece of work gives to whoever waits for it. -/
def Ending.result {α : Type} (name : String) : Ending α → Except Error α
  | .returned result => result
  | .crashed _ => .error (.internal ("background work " ++ name ++ " ended without a result"))

/-- The work in the background. Pieces are named by their numbers. -/
structure Background (π α : Type) where
  /-- How many pieces were started. -/
  started : Nat := 0
  /-- The pieces that have not ended. -/
  pieces : Directory Nat (Piece π) := {}
  /-- The pieces that can go on, in line. -/
  ready : List Nat := []
  /-- The watched pieces that nobody has waited for. -/
  outstanding : List Nat := []
  endings : Directory Nat (Ending α) := {}
  failures : FailureLog := {}

namespace Background

variable {π α : Type}

/-! ## Starting -/

/-- Takes up a piece of work, which is not in line yet. Gives its number. -/
def register (b : Background π α) (name : String) (isWatched : Bool) (rest : π) :
    Nat × Background π α :=
  let n := b.started
  (n, { b with
    started := n + 1
    pieces := b.pieces.insert n ⟨name, isWatched, rest⟩
    outstanding :=
      if isWatched then b.outstanding.filter (!b.endings.contains ·) ++ [n] else b.outstanding })

/-- Starts a piece of work, at the end of the line. Gives its number. -/
def start (b : Background π α) (name : String) (isWatched : Bool) (rest : π) :
    Nat × Background π α :=
  let (n, b) := b.register name isWatched rest
  (n, { b with ready := b.ready ++ [n] })

/-! ## Going on -/

/-- Puts a piece at the end of the line, unless it is in line. -/
def wake (b : Background π α) (n : Nat) : Background π α :=
  if n ∈ b.ready then b else { b with ready := b.ready ++ [n] }

/-- Takes a piece out of the line. -/
def park (b : Background π α) (n : Nat) : Background π α :=
  { b with ready := b.ready.filter (· ≠ n) }

/-- Sets what is left of a piece. -/
def setRest (b : Background π α) (n : Nat) (rest : π) : Background π α :=
  { b with pieces := b.pieces.modify n fun piece => { piece with rest } }

/-- What the log keeps of an ended piece. -/
def failure? (piece : Piece π) : Ending α → Option Failure
  | .returned (.error e) => if piece.isWatched then some ⟨piece.name, e.message⟩ else none
  | .returned (.ok _) | .crashed _ => none

/-- Ends a piece. -/
def conclude (b : Background π α) (n : Nat) (ending : Ending α) : Background π α :=
  let failure? := (b.pieces.get? n).bind (failure? · ending)
  { b.park n with
    pieces := b.pieces.erase n
    endings := b.endings.insert n ending
    failures := failure?.elim b.failures b.failures.record }

/-! ## Waiting -/

/-- Takes the watched pieces that nobody has waited for. -/
def takeOutstanding (b : Background π α) : List Nat × Background π α :=
  (b.outstanding, { b with outstanding := [] })

/-- Notes a piece that ended without a result, once somebody has waited for it. Whoever has waited
does not know its name. -/
def noteCrash (b : Background π α) (n : Nat) : Background π α :=
  match b.endings.get? n with
  | some (.crashed message) => { b with failures := b.failures.record ⟨"unknown", message⟩ }
  | _ => b

/-- Takes the failures out of the log. -/
def takeFailures (b : Background π α) : List Failure × Background π α :=
  let (taken, failures) := b.failures.take
  (taken, { b with failures })

end Background

end GeoAssets
