/-!
# Blank characters

The Unicode property `White_Space`: the characters that may not occur in a task id and that are cut
off at both ends of a setting's value. The table lists the whole property, so it is larger than the
ASCII class of `Char.isWhitespace`.
-/

namespace GeoAssets.Text

/-! ## The property -/

/-- The closed ranges of code points that carry `White_Space`, in ascending order. -/
def blankRanges : List (Nat × Nat) :=
  [(0x09, 0x0D), (0x20, 0x20), (0x85, 0x85), (0xA0, 0xA0), (0x1680, 0x1680), (0x2000, 0x200A),
    (0x2028, 0x2029), (0x202F, 0x202F), (0x205F, 0x205F), (0x3000, 0x3000)]

-- The property has 25 members.
example : blankRanges.foldr (fun r n => r.2 + 1 - r.1 + n) 0 = 25 := by decide

/-- Decides whether a character carries `White_Space`. -/
def isBlank (c : Char) : Bool :=
  blankRanges.any fun r => r.1 ≤ c.toNat && c.toNat ≤ r.2

/-- Every blank of ASCII carries the property. -/
theorem isBlank_of_isWhitespace {c : Char} (h : c.isWhitespace = true) : isBlank c = true := by
  simp only [Char.isWhitespace, Bool.or_eq_true, decide_eq_true_eq] at h
  rcases h with ((h | h) | h) | h <;> subst h <;> decide

/-! ## Trimming -/

/-- The characters from the first one that is not blank on. -/
def trimStart (cs : List Char) : List Char :=
  cs.dropWhile isBlank

/-- The characters up to the last one that is not blank. -/
def trimEnd (cs : List Char) : List Char :=
  (trimStart cs.reverse).reverse

/-- Cuts the blanks off both ends of a text. -/
def trim (s : String) : String :=
  String.ofList (trimEnd (trimStart s.toList))

end GeoAssets.Text
