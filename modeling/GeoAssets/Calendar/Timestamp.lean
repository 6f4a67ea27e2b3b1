import GeoAssets.Calendar.Date
import GeoAssets.Json.Codec
import GeoAssets.Text.Blank

/-!
# Timestamps

A timestamp is an instant in universal time with nanoseconds. It is written in the form of RFC 3339
with `Z` and a fraction of 0, 3, 6 or 9 digits, as many as are needed. The reader is more liberal:
blanks may stand around the parts, leading zeros may be missing, years may have a sign, and any
offset is converted; the year has to be covered before and after that. In a leap second the
nanoseconds run from one billion to two.
-/

namespace GeoAssets

/-- An instant in universal time. -/
structure Timestamp where
  /-- Whole seconds since the beginning of 1970. -/
  seconds : Int
  /-- Nanoseconds within the second; one billion and more in a leap second. -/
  nanos : Nat
  deriving DecidableEq, Repr, Inhabited

namespace Timestamp

/-! ## Writing -/

/-- A number with leading zeros. -/
def padded (width n : Nat) : String :=
  let digits := (toString n).toList
  String.ofList (List.replicate (width - digits.length) '0' ++ digits)

/-- A year: four digits, or a sign and at least four digits outside 0 to 9999. -/
def yearText (y : Int) : String :=
  if y < 0 then "-" ++ padded 4 y.natAbs
  else if 9999 < y then "+" ++ padded 4 y.natAbs
  else padded 4 y.natAbs

/-- The fraction of a second, in the least of 0, 3, 6 and 9 digits. -/
def fractionText (nanos : Nat) : String :=
  if nanos = 0 then ""
  else if nanos % 1000000 = 0 then "." ++ padded 3 (nanos / 1000000)
  else if nanos % 1000 = 0 then "." ++ padded 6 (nanos / 1000)
  else "." ++ padded 9 nanos

/-- The date of a timestamp. -/
def date (t : Timestamp) : Date :=
  .ofDays (t.seconds.fdiv 86400)

/-- The text of a timestamp. -/
def text (t : Timestamp) : String :=
  let date := t.date
  let second := (t.seconds.fmod 86400).toNat
  let leap := if 1000000000 ≤ t.nanos then 1 else 0
  yearText date.year ++ "-" ++ padded 2 date.month ++ "-" ++ padded 2 date.day ++ "T"
    ++ padded 2 (second / 3600) ++ ":" ++ padded 2 (second / 60 % 60) ++ ":"
    ++ padded 2 (second % 60 + leap) ++ fractionText (t.nanos % 1000000000) ++ "Z"

/-! ## Reading -/

/-- The number that a list of digits writes. -/
def digitsValue (digits : List Char) : Nat :=
  digits.foldl (fun n c => n * 10 + (c.toNat - '0'.toNat)) 0

/-- The number that at most `width` leading digits write, at least one, and what follows. -/
def readNumber (width : Nat) (cs : List Char) : Option (Nat × List Char) :=
  let digits := (cs.take width).takeWhile Char.isDigit
  if digits.isEmpty then none
  else some (digitsValue digits, cs.drop digits.length)

/-- A number after blanks. -/
def readField (width : Nat) (cs : List Char) : Option (Nat × List Char) :=
  readNumber width (Text.trimStart cs)

/-- A year after blanks: up to four digits, or a sign and any number of digits. -/
def readYear (cs : List Char) : Option (Int × List Char) :=
  match Text.trimStart cs with
  | '-' :: rest => (readNumber rest.length rest).map fun p => (-(p.1 : Int), p.2)
  | '+' :: rest => (readNumber rest.length rest).map fun p => ((p.1 : Int), p.2)
  | rest => (readNumber 4 rest).map fun p => ((p.1 : Int), p.2)

/-- A mark after blanks. -/
def readMark (mark : Char) (cs : List Char) : Option (List Char) :=
  match Text.trimStart cs with
  | c :: rest => if c = mark then some rest else none
  | [] => none

/-- The nanoseconds of a fraction, if there is one. Digits after the ninth are dropped. -/
def readFraction : List Char → Option (Nat × List Char)
  | '.' :: rest =>
    let digits := rest.takeWhile Char.isDigit
    if digits.isEmpty then none
    else some (digitsValue ((digits ++ List.replicate 9 '0').take 9), rest.dropWhile Char.isDigit)
  | rest => some (0, rest)

/-- An offset from universal time in seconds. -/
def readOffset (cs : List Char) : Option (Int × List Char) :=
  match cs with
  | 'Z' :: rest => some (0, rest)
  | 'z' :: rest => some (0, rest)
  | sign :: h :: h' :: rest => do
    let signed ←
      if sign = '+' then some 1
      else if sign = '-' ∨ sign = '\u2212' then some (-1)
      else none
    let (hours, _) ← if h.isDigit ∧ h'.isDigit then readNumber 2 [h, h'] else none
    match rest.dropWhile fun c => c = ':' || Text.isBlank c with
    | m :: m' :: rest =>
      let (minutes, _) ← if m.isDigit ∧ m'.isDigit then readNumber 2 [m, m'] else none
      if minutes < 60 ∧ hours < 24 then
        pure (signed * ((hours * 60 + minutes) * 60 : Nat), rest)
      else none
    | _ => none
  | _ => none

/-- An offset, where universal time may also be called by its name. -/
def readZone (cs : List Char) : Option (Int × List Char) :=
  match cs with
  | u :: t :: c :: rest =>
    if u.toUpper = 'U' ∧ t.toUpper = 'T' ∧ c.toUpper = 'C' then some (0, rest) else readOffset cs
  | _ => readOffset cs

/-- Reads a timestamp. -/
def ofText? (s : String) : Option Timestamp := do
  let (year, cs) ← readYear s.toList
  let cs ← readMark '-' cs
  let (month, cs) ← readField 2 cs
  let cs ← readMark '-' cs
  let (day, cs) ← readField 2 cs
  let cs ← match cs with
    | c :: rest => if c = 'T' ∨ c = 't' ∨ c = ' ' then some rest else none
    | [] => none
  let (hour, cs) ← readField 2 cs
  let cs ← readMark ':' cs
  let (minute, cs) ← readField 2 cs
  let cs ← readMark ':' cs
  let (second, cs) ← readField 2 cs
  let (fraction, cs) ← readFraction cs
  let (offset, cs) ← readZone (Text.trimStart cs)
  let date ← Date.ofParts? year month day
  if (Text.trimStart cs).isEmpty ∧ hour < 24 ∧ minute < 60 ∧ second ≤ 60 then
    let leap := if second = 60 then 1 else 0
    let here := date.toDays * 86400 + ((hour * 60 + minute) * 60 + second - leap : Nat)
    let t : Timestamp := ⟨here - offset, fraction + leap * 1000000000⟩
    if Date.coversYear t.date.year then pure t else none
  else none

/-- Timestamps are written as texts. -/
def codec : Codec Timestamp :=
  Codec.string.via ofText? text

end Timestamp

end GeoAssets
