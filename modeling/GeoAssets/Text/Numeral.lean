/-!
# Unsigned decimal numerals

Reading a number with an upper bound from a setting. A plus sign may stand in front. Digits are read
from left to right: a character that is no digit is reported if it is met before the number exceeds
the bound, and the excess is reported otherwise.
-/

namespace GeoAssets.Text

/-- Why a text is no numeral below a bound. -/
inductive NumeralError where
  /-- Something other than a digit stands in the numeral. -/
  | invalidDigit
  /-- The number exceeds the bound. -/
  | tooLarge
  deriving DecidableEq, Repr

/-- The wording of the reason. -/
def NumeralError.message : NumeralError → String
  | .invalidDigit => "invalid digit found in string"
  | .tooLarge => "number too large to fit in target type"

/-- Reads digits onto a number that stays below `bound`. -/
def readDigits (bound : Nat) : Nat → List Char → Except NumeralError Nat
  | n, [] => .ok n
  | n, c :: rest =>
    if c.isDigit then
      let next := n * 10 + (c.toNat - '0'.toNat)
      if next < bound then readDigits bound next rest else .error .tooLarge
    else .error .invalidDigit

/-- Reads a nonempty numeral below `bound`, with or without a plus sign. -/
def readNumeral (bound : Nat) (s : String) : Except NumeralError Nat :=
  match s.toList with
  | [] => .error .invalidDigit
  | ['+'] => .error .invalidDigit
  | '+' :: digits => readDigits bound 0 digits
  | digits => readDigits bound 0 digits

end GeoAssets.Text
