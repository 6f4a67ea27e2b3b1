import GeoAssets.Error

/-!
# The failure log

Work in the background may fail when nobody looks. The last failures are kept, up to a fixed number,
until they are taken.
-/

namespace GeoAssets

/-- A failed piece of work. -/
structure Failure where
  /-- The name of the work. -/
  name : String
  /-- The wording of the error. -/
  message : String
  deriving DecidableEq, Repr

/-- The last failures, oldest first. -/
structure FailureLog where
  failures : List Failure := []
  deriving DecidableEq, Repr

namespace FailureLog

/-- How many failures are kept. -/
def capacity : Nat := 256

/-- Adds a failure at the end. A log that is full loses its oldest failure. -/
def record (l : FailureLog) (f : Failure) : FailureLog :=
  if l.failures.length = capacity then ⟨l.failures.tail ++ [f]⟩ else ⟨l.failures ++ [f]⟩

/-- Takes the failures out of the log. -/
def take (l : FailureLog) : List Failure × FailureLog :=
  (l.failures, {})

end FailureLog

end GeoAssets
