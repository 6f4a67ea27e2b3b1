import GeoAssets.Json.Value

/-!
# Reading JSON text

A text is cut into tokens, and the tokens are folded over the stack of the arrays and objects that
are open. Both parts are total without fuel: a token takes at least one character off the input
(`nextToken_lt`), and the fold handles each token in one step.
-/

namespace GeoAssets.Json

/-! ## Texts

A text is read as a list of numbers: the code points of its characters and the units of its `\u`
escapes. A second pass joins pairs of surrogates. -/

/-- The value of a hexadecimal digit. -/
def hexValue? (c : Char) : Option Nat :=
  if '0' ≤ c ∧ c ≤ '9' then some (c.toNat - '0'.toNat)
  else if 'a' ≤ c ∧ c ≤ 'f' then some (c.toNat - 'a'.toNat + 10)
  else if 'A' ≤ c ∧ c ≤ 'F' then some (c.toNat - 'A'.toNat + 10)
  else none

/-- The number that four hexadecimal digits write. -/
def hexValue4? (a b c d : Char) : Option Nat := do
  let a ← hexValue? a
  let b ← hexValue? b
  let c ← hexValue? c
  let d ← hexValue? d
  pure (((a * 16 + b) * 16 + c) * 16 + d)

/-- The code point that a one-letter escape stands for. -/
def shortEscape? : Char → Option Nat
  | '"' => some 0x22
  | '\\' => some 0x5C
  | '/' => some 0x2F
  | 'b' => some 0x08
  | 'f' => some 0x0C
  | 'n' => some 0x0A
  | 'r' => some 0x0D
  | 't' => some 0x09
  | _ => none

/-- Puts a unit in front of what was read after it. -/
def consUnit (unit : Option Nat) (read : Option (List Nat × List Char)) :
    Option (List Nat × List Char) :=
  match unit, read with
  | some u, some (us, rest) => some (u :: us, rest)
  | _, _ => none

/-- The units of a text up to its closing quote, and what follows the quote. -/
def readUnits : List Char → Option (List Nat × List Char)
  | [] => none
  | '"' :: rest => some ([], rest)
  | '\\' :: 'u' :: a :: b :: c :: d :: rest => consUnit (hexValue4? a b c d) (readUnits rest)
  | '\\' :: e :: rest => consUnit (shortEscape? e) (readUnits rest)
  | c :: rest =>
    consUnit (if c.toNat < 0x20 ∨ c = '\\' then none else some c.toNat) (readUnits rest)

theorem eq_some_of_consUnit {unit : Option Nat} {read : Option (List Nat × List Char)}
    {units : List Nat} {rest : List Char} (h : consUnit unit read = some (units, rest)) :
    ∃ us, read = some (us, rest) := by
  unfold consUnit at h
  split at h
  · simp only [Option.some.injEq, Prod.mk.injEq] at h
    exact ⟨_, by rw [← h.2]⟩
  · cases h

/-- What follows a text is shorter than the text with its closing quote. -/
theorem readUnits_lt {cs : List Char} {units : List Nat} {rest : List Char}
    (h : readUnits cs = some (units, rest)) : rest.length < cs.length := by
  fun_induction readUnits cs generalizing units with
  | case1 => cases h
  | case2 r =>
    simp only [Option.some.injEq, Prod.mk.injEq] at h
    simp [← h.2]
  | case3 a b c d r ih =>
    obtain ⟨us, hr⟩ := eq_some_of_consUnit h
    have := ih hr
    simp only [List.length_cons]
    omega
  | case4 e r _ ih =>
    obtain ⟨us, hr⟩ := eq_some_of_consUnit h
    have := ih hr
    simp only [List.length_cons]
    omega
  | case5 c r _ _ _ ih =>
    obtain ⟨us, hr⟩ := eq_some_of_consUnit h
    have := ih hr
    simp only [List.length_cons]
    omega

/-- Decides whether a unit is the first half of a pair of surrogates. -/
def isHighSurrogate (u : Nat) : Bool :=
  0xD800 ≤ u && u < 0xDC00

/-- Decides whether a unit is the second half of a pair of surrogates. -/
def isLowSurrogate (u : Nat) : Bool :=
  0xDC00 ≤ u && u < 0xE000

/-- The characters of a list of units; `none` if a surrogate stands alone. -/
def unitChars? : List Nat → Option (List Char)
  | [] => some []
  | [u] => if isHighSurrogate u || isLowSurrogate u then none else some [Char.ofNat u]
  | u :: v :: rest =>
    if isHighSurrogate u then
      if isLowSurrogate v then
        (unitChars? rest).map (Char.ofNat (0x10000 + (u - 0xD800) * 0x400 + (v - 0xDC00)) :: ·)
      else none
    else if isLowSurrogate u then none
    else (unitChars? (v :: rest)).map (Char.ofNat u :: ·)

/-! ## Numbers -/

/-- Decides whether a character can stand in a number. -/
def isNumberChar (c : Char) : Bool :=
  c.isDigit || c = '+' || c = '-' || c = '.' || c = 'e' || c = 'E'

/-- What follows the digits at the beginning of a text; `none` if there is no digit. -/
def afterDigits? (cs : List Char) : Option (List Char) :=
  if cs.head?.any Char.isDigit then some (cs.dropWhile Char.isDigit) else none

/-- What follows the whole part of a number. No digit follows a zero in front. -/
def afterWhole? : List Char → Option (List Char)
  | '0' :: rest => some rest
  | cs => afterDigits? cs

/-- What follows the fraction of a number, if there is one. -/
def afterFraction? : List Char → Option (List Char)
  | '.' :: rest => afterDigits? rest
  | cs => some cs

/-- What follows a sign, if there is one. -/
def afterSign : List Char → List Char
  | '+' :: rest | '-' :: rest => rest
  | cs => cs

/-- What follows the exponent of a number, if there is one. -/
def afterExponent? : List Char → Option (List Char)
  | 'e' :: rest | 'E' :: rest => afterDigits? (afterSign rest)
  | cs => some cs

/-- Decides whether a text is a number without a sign. -/
def isUnsigned (cs : List Char) : Bool :=
  ((afterWhole? cs).bind afterFraction?).bind afterExponent? = some []

/-- Decides whether a text is a number. -/
def isNumber : List Char → Bool
  | '-' :: rest => isUnsigned rest
  | cs => isUnsigned cs

/-- The number that a list of digits writes; `none` if there is no digit or another character. -/
def digitsValue? (cs : List Char) : Option Nat :=
  if cs.isEmpty || !cs.all Char.isDigit then none
  else some (cs.foldl (fun n c => n * 10 + (c.toNat - '0'.toNat)) 0)

/-- A number that is written as an integer and fits 64 bits; minus zero is none. -/
def integer? : List Char → Option Int
  | '-' :: digits => do
    let n ← digitsValue? digits
    if n ≠ 0 ∧ fits64 (-(n : Int)) then some (-(n : Int)) else none
  | digits => do
    let n ← digitsValue? digits
    if fits64 n then some (n : Int) else none

/-- The number with a given literal; `none` if the literal is no number. -/
def ofLiteral? (literal : List Char) : Option Json :=
  if isNumber literal then
    some ((integer? literal).elim (.real (String.ofList literal)) .int)
  else none

/-! ## Tokens -/

/-- A token of JSON text. -/
inductive Token where
  | openArray
  | closeArray
  | openObject
  | closeObject
  | comma
  | colon
  /-- A value that is neither array nor object. -/
  | scalar (value : Json)
  deriving Inhabited

/-- Decides whether a character may stand between tokens. -/
def isGap (c : Char) : Bool :=
  c = ' ' || c = '\n' || c = '\r' || c = '\t'

/-- The first token of a text that begins with no gap, and what follows the token. -/
def nextToken : List Char → Option (Token × List Char)
  | '[' :: rest => some (.openArray, rest)
  | ']' :: rest => some (.closeArray, rest)
  | '\x7b' :: rest => some (.openObject, rest)
  | '\x7d' :: rest => some (.closeObject, rest)
  | ',' :: rest => some (.comma, rest)
  | ':' :: rest => some (.colon, rest)
  | 'n' :: 'u' :: 'l' :: 'l' :: rest => some (.scalar .null, rest)
  | 't' :: 'r' :: 'u' :: 'e' :: rest => some (.scalar (.bool true), rest)
  | 'f' :: 'a' :: 'l' :: 's' :: 'e' :: rest => some (.scalar (.bool false), rest)
  | '"' :: rest =>
    match readUnits rest with
    | some (units, rest) =>
      (unitChars? units).map fun cs => (.scalar (.string (String.ofList cs)), rest)
    | none => none
  | c :: rest =>
    if isNumberChar c then
      (ofLiteral? (c :: rest.takeWhile isNumberChar)).map fun v =>
        (.scalar v, rest.dropWhile isNumberChar)
    else none
  | [] => none

/-- A token takes at least one character. -/
theorem nextToken_lt {cs rest : List Char} {t : Token} (h : nextToken cs = some (t, rest)) :
    rest.length < cs.length := by
  unfold nextToken at h
  split at h
  case h_10 r =>
    split at h
    · next units r' hr =>
      obtain ⟨chars, _, he⟩ := Option.map_eq_some_iff.mp h
      simp only [Prod.mk.injEq] at he
      have := readUnits_lt hr
      simp only [← he.2, List.length_cons]
      omega
    · cases h
  case h_11 c r _ _ _ _ _ _ _ _ _ _ =>
    split at h
    · obtain ⟨v, _, he⟩ := Option.map_eq_some_iff.mp h
      simp only [Prod.mk.injEq] at he
      have : (r.dropWhile isNumberChar).length ≤ r.length :=
        (List.dropWhile_sublist isNumberChar).length_le
      simp only [← he.2, List.length_cons]
      omega
    · cases h
  all_goals
    simp only [Option.some.injEq, Prod.mk.injEq, reduceCtorEq] at h
    try simp only [← h.2, List.length_cons]; omega

/-- The tokens of a text. -/
def tokens : List Char → Option (List Token)
  | [] => some []
  | c :: rest =>
    if isGap c then tokens rest
    else
      match _h : nextToken (c :: rest) with
      | some (t, after) => (tokens after).map (t :: ·)
      | none => none
termination_by cs => cs.length
decreasing_by
  · simp
  · exact nextToken_lt _h

/-! ## Open values -/

/-- An array or object that has not been closed. -/
inductive Frame where
  /-- An array with the items read so far, last first. `awaits`: an item must follow. -/
  | array (items : List Json) (awaits : Bool)
  /-- An object with the members read so far. `awaits`: a member must follow. -/
  | object (members : List (String × Json)) (awaits : Bool)
  /-- An object after a member's name. -/
  | named (members : List (String × Json)) (name : String)
  /-- An object after a member's name and colon. -/
  | valued (members : List (String × Json)) (name : String)

/-- Where reading stands: the open values, innermost first, and the value that was completed last
at the outermost level. -/
structure State where
  frames : List Frame
  result : Option Json

/-- Puts a completed value where it belongs. An object does not name a member twice. -/
def State.complete (v : Json) : State → Option State
  | ⟨[], none⟩ => some ⟨[], some v⟩
  | ⟨.array items true :: frames, r⟩ => some ⟨.array (v :: items) false :: frames, r⟩
  | ⟨.object ms true :: frames, r⟩ =>
    match v with
    | .string name =>
      if name ∈ ms.map Prod.fst then none else some ⟨.named ms name :: frames, r⟩
    | _ => none
  | ⟨.valued ms name :: frames, r⟩ => some ⟨.object (ms ++ [(name, v)]) false :: frames, r⟩
  | _ => none

/-- Decides whether a value may stand next. -/
def State.awaitsValue : State → Bool
  | ⟨[], none⟩ => true
  | ⟨.array _ true :: _, _⟩ => true
  | ⟨.valued _ _ :: _, _⟩ => true
  | _ => false

/-- Reads one token. -/
def State.step (s : State) : Token → Option State
  | .scalar v => s.complete v
  | .openArray =>
    if s.awaitsValue then some ⟨.array [] true :: s.frames, s.result⟩ else none
  | .openObject =>
    if s.awaitsValue then some ⟨.object [] true :: s.frames, s.result⟩ else none
  | .closeArray =>
    match s.frames with
    | .array items false :: frames => State.complete (.array items.reverse) ⟨frames, s.result⟩
    | .array [] true :: frames => State.complete (.array []) ⟨frames, s.result⟩
    | _ => none
  | .closeObject =>
    match s.frames with
    | .object ms false :: frames => State.complete (.object ms) ⟨frames, s.result⟩
    | .object [] true :: frames => State.complete (.object []) ⟨frames, s.result⟩
    | _ => none
  | .comma =>
    match s.frames with
    | .array items false :: frames => some ⟨.array items true :: frames, s.result⟩
    | .object ms false :: frames => some ⟨.object ms true :: frames, s.result⟩
    | _ => none
  | .colon =>
    match s.frames with
    | .named ms name :: frames => some ⟨.valued ms name :: frames, s.result⟩
    | _ => none

/-- Reads one JSON value from a text that holds nothing else. A text with a number that is not in
the form of JSON, or with an object that names a member twice, is not read. -/
def read? (text : String) : Option Json := do
  let ts ← tokens text.toList
  let s ← ts.foldlM State.step ⟨[], none⟩
  if s.frames.isEmpty then s.result else none

end GeoAssets.Json
