/-!
# Dates of the Gregorian calendar

Dates are counted in days from 1970-01-01. Years begin in March for the count, so that a leap day is
the last day of its year, and 400 years make one era of 146097 days.
-/

namespace GeoAssets

/-- A date of the proleptic Gregorian calendar. -/
structure Date where
  year : Int
  month : Nat
  day : Nat
  deriving DecidableEq, Repr

namespace Date

/-! ## Lengths -/

/-- Decides whether a year has a leap day. -/
def isLeapYear (y : Int) : Bool :=
  y.emod 4 = 0 && (y.emod 100 != 0 || y.emod 400 = 0)

/-- The number of days of a month. -/
def daysInMonth (y : Int) (m : Nat) : Nat :=
  if m = 2 then if isLeapYear y then 29 else 28
  else if m = 4 ∨ m = 6 ∨ m = 9 ∨ m = 11 then 30
  else 31

/-- The years that timestamps cover. -/
def coversYear (y : Int) : Bool :=
  -262143 ≤ y && y ≤ 262142

/-- A date, if there is one with these parts. -/
def ofParts? (y : Int) (m d : Nat) : Option Date :=
  if coversYear y ∧ 1 ≤ m ∧ m ≤ 12 ∧ 1 ≤ d ∧ d ≤ daysInMonth y m then some ⟨y, m, d⟩ else none

/-! ## Counting days -/

/-- The number of days from 1970-01-01 to a date. -/
def toDays (date : Date) : Int :=
  let y := if date.month ≤ 2 then date.year - 1 else date.year
  let era := y.fdiv 400
  let yearOfEra := y - era * 400
  let monthOfYear : Int := if date.month ≤ 2 then date.month + 9 else date.month - 3
  let dayOfYear := (153 * monthOfYear + 2).fdiv 5 + date.day - 1
  let dayOfEra := yearOfEra * 365 + yearOfEra.fdiv 4 - yearOfEra.fdiv 100 + dayOfYear
  era * 146097 + dayOfEra - 719468

/-- The date that lies a number of days after 1970-01-01. -/
def ofDays (days : Int) : Date :=
  let z := days + 719468
  let era := z.fdiv 146097
  let dayOfEra := z - era * 146097
  let yearOfEra :=
    (dayOfEra - dayOfEra.fdiv 1460 + dayOfEra.fdiv 36524 - dayOfEra.fdiv 146096).fdiv 365
  let dayOfYear := dayOfEra - (365 * yearOfEra + yearOfEra.fdiv 4 - yearOfEra.fdiv 100)
  let monthOfYear := (5 * dayOfYear + 2).fdiv 153
  let day := dayOfYear - (153 * monthOfYear + 2).fdiv 5 + 1
  let month := if monthOfYear < 10 then monthOfYear + 3 else monthOfYear - 9
  let year := yearOfEra + era * 400 + if month ≤ 2 then 1 else 0
  ⟨year, month.toNat, day.toNat⟩

end Date

end GeoAssets
