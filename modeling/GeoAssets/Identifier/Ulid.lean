/-!
# Sortable identifiers

A ULID has 128 bits: 48 bits of time in milliseconds and then 80 bits that tell identifiers of the
same millisecond apart. It is written as 26 digits of base 32, most significant first, so texts sort
like identifiers. The digits are the decimal digits and the letters without I, L, O and U.
-/

namespace GeoAssets

/-- A sortable identifier of 128 bits. -/
structure Ulid where
  bits : BitVec 128
  deriving DecidableEq, Repr

namespace Ulid

/-- Why a text is no ULID. -/
inductive ReadError where
  /-- The text does not have 26 bytes. -/
  | length
  /-- A character is no digit of base 32. -/
  | character
  deriving DecidableEq, Repr

/-- The wording of the reason. -/
def ReadError.message : ReadError → String
  | .length => "invalid length"
  | .character => "invalid character"

/-! ## Digits -/

/-- The digits of base 32, in the order of their values. -/
def alphabet : List Char :=
  "0123456789ABCDEFGHJKMNPQRSTVWXYZ".toList

/-- The character that writes a digit. -/
def digitChar (d : Nat) : Char :=
  alphabet.getD d '0'

/-- The value of a digit, in upper or lower case. -/
def digitValue? (c : Char) : Option Nat :=
  alphabet.idxOf? c.toUpper

/-- A digit that was written is read back. -/
theorem digitValue?_digitChar {d : Nat} (h : d < 32) : digitValue? (digitChar d) = some d := by
  have hall : ∀ e ∈ List.range 32, digitValue? (digitChar e) = some e := by decide +kernel
  exact hall d (List.mem_range.mpr h)

/-! ## Texts -/

/-- The number of digits. -/
def textLength : Nat := 26

/-- As many digits of a number as asked for, from its last one back, most significant first. -/
def lastDigits : Nat → Nat → List Char
  | 0, _ => []
  | count + 1, n => lastDigits count (n / 32) ++ [digitChar (n % 32)]

/-- The text of an identifier, in upper case. -/
def text (u : Ulid) : String :=
  String.ofList (lastDigits textLength u.bits.toNat)

/-- The number that a list of digits writes, most significant first. -/
def digitsValue? : Nat → List Char → Option Nat
  | n, [] => some n
  | n, c :: rest =>
    match digitValue? c with
    | some d => digitsValue? (n * 32 + d) rest
    | none => none

/-- Reads an identifier. The 26 digits have 130 bits; the two in excess are dropped. -/
def ofText (s : String) : Except ReadError Ulid :=
  if s.utf8ByteSize ≠ textLength then .error .length
  else
    match digitsValue? 0 s.toList with
    | some n => .ok ⟨BitVec.ofNat 128 n⟩
    | none => .error .character

/-! ## Order and time -/

/-- The time in milliseconds since the epoch. -/
def milliseconds (u : Ulid) : Nat :=
  (u.bits.extractLsb' 80 48).toNat

/-- The order of identifiers. -/
def le (u v : Ulid) : Bool :=
  u.bits.toNat ≤ v.bits.toNat

end Ulid

end GeoAssets
