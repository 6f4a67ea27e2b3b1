import GeoAssets.Json.Codec

/-!
# Statuses

A change log entry reports that work is pending, succeeded or failed. An asset or version is
pending, saved or failed, and the last two are final. A task has the statuses of its entries.
-/

namespace GeoAssets

/-! ## What an entry reports -/

/-- What a change log entry, or a task, reports. -/
inductive Progress where
  | pending
  | success
  | failed
  deriving DecidableEq, Repr

namespace Progress

/-- All members of the type. -/
def all : List Progress :=
  [.pending, .success, .failed]

/-- The name of what is reported. -/
def name : Progress → String
  | .pending => "pending"
  | .success => "success"
  | .failed => "failed"

/-- Decides whether work has come to an end. -/
def isTerminal : Progress → Bool
  | .pending => false
  | .success | .failed => true

/-- Progress is written by name. -/
def codec : Codec Progress :=
  .named all name

end Progress

/-! ## Where an asset or version stands -/

/-- Where an asset or version stands. -/
inductive Status where
  | pending
  | saved
  | failed
  deriving DecidableEq, Repr

namespace Status

/-- All members of the type. -/
def all : List Status :=
  [.pending, .saved, .failed]

/-- The name of a status. -/
def name : Status → String
  | .pending => "pending"
  | .saved => "saved"
  | .failed => "failed"

/-- Decides whether a status is final. -/
def isTerminal : Status → Bool
  | .pending => false
  | .saved | .failed => true

/-- Statuses are written by name. -/
def codec : Codec Status :=
  .named all name

/-- Only one status is not final. -/
theorem isTerminal_eq_false_iff {s : Status} : s.isTerminal = false ↔ s = .pending := by
  cases s <;> decide

end Status

end GeoAssets
