import GeoAssets.Json.Layout

/-!
# Backing off after memory exhaustion

A job that ran out of memory is tried again with fewer cores or processes: each such attempt halves
the number, rounded up, and at least one is left. The rule is a function of the history alone, so it
gives the same answer each time it is asked.
-/

namespace GeoAssets

/-! ## Attempts -/

/-- A finished attempt to run a job. -/
structure JobAttempt where
  /-- Why the container ended. -/
  reason : Option String := none
  exitCode : Option Int32 := none
  deriving DecidableEq, Repr

namespace JobAttempt

/-- The fields of an attempt. -/
def layout : Layout JobAttempt :=
  ((Layout.nullable "reason" .string).and (Layout.nullable "exit_code" .int32)).imap
    (fun (reason, exitCode) => ⟨reason, exitCode⟩) fun a => (a.reason, a.exitCode)

/-- Attempts are written as records. -/
def codec : Codec JobAttempt :=
  layout.codec

theorem layout_reads : layout.Reads :=
  Layout.imap_reads
    (Layout.and_reads (Layout.nullable_reads Codec.string_roundTrips Codec.string_neverNull)
      (Layout.nullable_reads Codec.int32_roundTrips Codec.int32_neverNull) (by decide))
    fun _ => rfl

/-- What begins the reason of a container that ran out of memory. -/
def exhaustionReason : String :=
  "OutOfMemoryError: Container killed due to memory usage"

/-- The exit code of a process that was killed for its use of memory. -/
def exhaustionExitCode : Int32 := 137

end JobAttempt

/-! ## Signals -/

/-- What counts as a sign that an attempt ran out of memory. -/
inductive ExhaustionSignal where
  /-- The reason alone. -/
  | reason
  /-- The reason or the exit code. -/
  | reasonOrExitCode
  deriving DecidableEq, Repr

namespace ExhaustionSignal

/-- Decides whether the reason of an attempt says that it ran out of memory. -/
def byReason (a : JobAttempt) : Bool :=
  match a.reason with
  | some text => JobAttempt.exhaustionReason.toList.isPrefixOf text.toList
  | none => false

/-- Decides whether an attempt shows a signal. -/
def shownBy : ExhaustionSignal → JobAttempt → Bool
  | .reason, a => byReason a
  | .reasonOrExitCode, a => byReason a || a.exitCode == some JobAttempt.exhaustionExitCode

end ExhaustionSignal

/-! ## The rule -/

namespace Backoff

/-- Half a number, rounded up. -/
def halveUp (n : Nat) : Nat :=
  (n + 1) / 2

/-- Half a number once for each attempt that shows a signal, but at least one. -/
def reduced (signal : ExhaustionSignal) (current : UInt32) (history : List JobAttempt) : UInt32 :=
  let halved := (history.filter signal.shownBy).foldl (fun n _ => halveUp n) current.toNat
  .ofNat (max halved 1)

/-- The number of cores for the next attempt. -/
def cores (current : UInt32) (history : List JobAttempt) : UInt32 :=
  reduced .reason current history

/-- The number of processes for the next attempt. -/
def processes (current : UInt32) (history : List JobAttempt) : UInt32 :=
  reduced .reasonOrExitCode current history

end Backoff

end GeoAssets
