import GeoAssets.Json.Printer
import GeoAssets.Json.Reader

/-!
# The tokens of a printed value

The compact text of a value is cut into the tokens of the value, whatever stands behind it
(`Plain.cutsInto`). Only a number does not show where it ends, so what stands behind it must not go
on with it (`EndsNumber`).
-/

namespace GeoAssets.Json

/-! ## Plain values -/

/-- A value without numbers beyond 64 bits, in which no object has two members of one name. -/
inductive Plain : Json → Prop where
  | null : Plain .null
  | bool (b : Bool) : Plain (.bool b)
  | int {n : Int} (fits : fits64 n = true) : Plain (.int n)
  | string (s : String) : Plain (.string s)
  | array {items : List Json} (plain : ∀ v ∈ items, Plain v) : Plain (.array items)
  | object {members : List (String × Json)} (distinct : (members.map Prod.fst).Nodup)
    (plain : ∀ m ∈ members, Plain m.2) : Plain (.object members)

mutual

/-- The tokens of a value. -/
def tokensOf : Json → List Token
  | .array items => .openArray :: ([.comma].intercalate (tokensOfItems items) ++ [.closeArray])
  | .object members =>
    .openObject :: ([.comma].intercalate (tokensOfMembers members) ++ [.closeObject])
  | v => [.scalar v]

/-- The tokens of each item of an array. -/
def tokensOfItems : List Json → List (List Token)
  | [] => []
  | v :: rest => tokensOf v :: tokensOfItems rest

/-- The tokens of each member of an object. -/
def tokensOfMembers : List (String × Json) → List (List Token)
  | [] => []
  | (name, v) :: rest =>
    (.scalar (.string name) :: .colon :: tokensOf v) :: tokensOfMembers rest

end

/-! ## Texts -/

/-- A hexadecimal digit is read as the number that it was printed for. -/
theorem hexValue?_hexDigit {n : Nat} (h : n < 16) : hexValue? (hexDigit n) = some n := by
  have all : ∀ n < 16, hexValue? (hexDigit n) = some n := by decide
  exact all n h

/-- The characters that are escaped by a letter or by themselves. -/
def shortEscaped : List Char :=
  ['"', '\\', '\x08', '\x0c', '\n', '\r', '\t']

/-- Every other character is escaped by its number if it is a control character, or not at all. -/
theorem escapedChar_of_notMem {c : Char} (h : c ∉ shortEscaped) :
    escapedChar c = if c.toNat < 0x20 then
      ['\\', 'u', '0', '0', hexDigit (c.toNat / 16), hexDigit (c.toNat % 16)] else [c] := by
  simp_all [escapedChar, shortEscaped]

/-- An escaped character is read as the character. -/
theorem readUnits_escapedChar (c : Char) (rest : List Char) :
    readUnits (escapedChar c ++ rest) = consUnit (some c.toNat) (readUnits rest) := by
  by_cases hshort : c ∈ shortEscaped
  · simp only [shortEscaped, List.mem_cons, List.not_mem_nil, or_false] at hshort
    rcases hshort with rfl | rfl | rfl | rfl | rfl | rfl | rfl
    all_goals rfl
  rw [escapedChar_of_notMem hshort]
  split
  · next hcontrol =>
    have hhigh := hexValue?_hexDigit (n := c.toNat / 16) (by omega)
    have hlow := hexValue?_hexDigit (n := c.toNat % 16) (by omega)
    have hzero : hexValue? '0' = some 0 := by decide
    have hvalue : c.toNat / 16 * 16 + c.toNat % 16 = c.toNat := by omega
    simp [readUnits, hexValue4?, hzero, hhigh, hlow, hvalue]
  · next hprint =>
    have hquote : c ≠ '"' := by rintro rfl; exact hshort (by decide)
    have hslash : c ≠ '\\' := by rintro rfl; exact hshort (by decide)
    rw [List.cons_append, List.nil_append, readUnits, if_neg (by simp [hprint, hslash])]
    · exact hquote
    all_goals simp [hslash]

theorem readUnits_escaped (cs rest : List Char) :
    readUnits (cs.flatMap escapedChar ++ '"' :: rest) = some (cs.map Char.toNat, rest) := by
  induction cs with
  | nil => rfl
  | cons c cs ih =>
    rw [List.flatMap_cons, List.append_assoc, readUnits_escapedChar, ih]
    rfl

/-- No character is half of a pair of surrogates. -/
theorem not_surrogate (c : Char) :
    isHighSurrogate c.toNat = false ∧ isLowSurrogate c.toNat = false := by
  have h := c.valid
  simp only [isHighSurrogate, isLowSurrogate, Bool.and_eq_false_iff, decide_eq_false_iff_not]
  have : c.toNat < 0xD800 ∨ 0xDFFF < c.toNat ∧ c.toNat < 0x110000 := h
  omega

theorem unitChars?_toNat (cs : List Char) : unitChars? (cs.map Char.toNat) = some cs := by
  induction cs with
  | nil => rfl
  | cons c cs ih =>
    obtain ⟨hhigh, hlow⟩ := not_surrogate c
    cases cs with
    | nil => simp [unitChars?, hhigh, hlow]
    | cons d cs =>
      simp only [List.map_cons] at ih ⊢
      simp [unitChars?, hhigh, hlow, ih]

/-! ## Numbers -/

/-- A number may end before a text: no character that can stand in a number begins it. -/
def EndsNumber (rest : List Char) : Prop :=
  ∀ c ∈ rest.head?, isNumberChar c = false

theorem endsNumber_cons {c : Char} {rest : List Char} (h : isNumberChar c = false) :
    EndsNumber (c :: rest) := by
  rintro _ ⟨⟩
  exact h

theorem digitsValue?_toDigits (n : Nat) : digitsValue? (Nat.toDigits 10 n) = some n := by
  have hdigits : (Nat.toDigits 10 n).all Char.isDigit = true :=
    List.all_eq_true.mpr fun c hc => Nat.isDigit_of_mem_toDigits (by decide) (by decide) hc
  have hvalue := Nat.ofDigitChars_ten_toDigits (n := n)
  rw [Nat.ofDigitChars_eq_foldl] at hvalue
  simpa [digitsValue?, hdigits, Nat.mul_comm] using hvalue

/-- No digits of a number begin with a minus sign. -/
theorem toDigits_ne_minus {n : Nat} {digits : List Char} : Nat.toDigits 10 n ≠ '-' :: digits := by
  intro hminus
  have hdigit := Nat.isDigit_of_mem_toDigits (b := 10) (n := n) (c := '-') (by decide) (by decide)
    (by rw [hminus]; exact List.mem_cons_self)
  exact absurd hdigit (by decide)

theorem integer?_toDigits {n : Nat} (h : fits64 n = true) :
    integer? (Nat.toDigits 10 n) = some (n : Int) := by
  unfold integer?
  split
  · next hminus => exact absurd hminus toDigits_ne_minus
  · rw [digitsValue?_toDigits, Option.bind_eq_bind, Option.bind_some, if_pos h]

/-- The digits of a number behind a minus sign are read as its negative, if it is not zero. -/
theorem integer?_minus_toDigits {n : Nat} (hn : n ≠ 0) (h : fits64 (-(n : Int)) = true) :
    integer? ('-' :: Nat.toDigits 10 n) = some (-(n : Int)) := by
  rw [integer?, digitsValue?_toDigits, Option.bind_eq_bind, Option.bind_some, if_pos ⟨hn, h⟩]

/-- The characters of an integer: its digits, behind a minus sign if it is negative. -/
theorem toList_toString_ofNat (n : Nat) : (toString (n : Int)).toList = Nat.toDigits 10 n := by
  simp [Int.repr]

theorem toList_toString_negSucc (n : Nat) :
    (toString (Int.negSucc n)).toList = '-' :: Nat.toDigits 10 (n + 1) := by
  simp [Int.repr]

/-- The digits of a number begin with a zero only if the number is zero. -/
theorem head?_toDigits_ne_zero {n : Nat} (hn : n ≠ 0) : (Nat.toDigits 10 n).head? ≠ some '0' := by
  induction n using Nat.strongRecOn with
  | ind n ih =>
    rcases Nat.lt_or_ge n 10 with hlt | hge
    · have all : ∀ m < 10, m ≠ 0 → (Nat.toDigits 10 m).head? ≠ some '0' := by decide
      exact all n hlt hn
    · have hquotient := ih (n / 10) (by omega) (by omega)
      obtain ⟨c, cs, hcs⟩ :=
        List.exists_cons_of_ne_nil (Nat.toDigits_ne_nil (n := n / 10) (b := 10))
      rw [hcs] at hquotient
      rw [Nat.toDigits_of_base_le (by decide) hge, hcs]
      exact hquotient

/-- The digits of a number are a number without a sign. -/
theorem isUnsigned_toDigits (n : Nat) : isUnsigned (Nat.toDigits 10 n) = true := by
  rcases Nat.eq_zero_or_pos n with rfl | hn
  · rfl
  have hdigit : ∀ c ∈ Nat.toDigits 10 n, c.isDigit = true := fun c hc =>
    Nat.isDigit_of_mem_toDigits (by decide) (by decide) hc
  obtain ⟨c, cs, hcs⟩ := List.exists_cons_of_ne_nil (Nat.toDigits_ne_nil (n := n) (b := 10))
  have hzero : c ≠ '0' := by
    rintro rfl
    exact head?_toDigits_ne_zero (Nat.ne_of_gt hn) (by rw [hcs]; rfl)
  rw [hcs] at hdigit ⊢
  have hrest : (c :: cs ++ []).dropWhile Char.isDigit = [] := List.dropWhile_append_of_pos hdigit
  rw [List.append_nil] at hrest
  have hwhole : afterWhole? (c :: cs) = some [] := by
    rw [afterWhole?, afterDigits?, List.head?_cons, Option.any_some,
      if_pos (hdigit c List.mem_cons_self), hrest]
    simpa using hzero
  rw [isUnsigned, hwhole]
  rfl

/-- The characters of an integer are a number. -/
theorem isNumber_toString (n : Int) : isNumber (toString n).toList = true := by
  cases n with
  | ofNat n =>
    rw [Int.ofNat_eq_natCast, toList_toString_ofNat]
    unfold isNumber
    split
    · next hminus => exact absurd hminus toDigits_ne_minus
    · exact isUnsigned_toDigits n
  | negSucc n =>
    rw [toList_toString_negSucc]
    exact isUnsigned_toDigits (n + 1)

/-- The characters of an integer are read as the integer. -/
theorem ofLiteral?_toString {n : Int} (h : fits64 n = true) :
    ofLiteral? (toString n).toList = some (.int n) := by
  have hread : integer? (toString n).toList = some n := by
    cases n with
    | ofNat n => rw [Int.ofNat_eq_natCast, toList_toString_ofNat, integer?_toDigits h]
    | negSucc n =>
      rw [toList_toString_negSucc]
      rw [Int.negSucc_eq] at h ⊢
      exact integer?_minus_toDigits (Nat.succ_ne_zero n) h
  rw [ofLiteral?, if_pos (isNumber_toString n), hread, Option.elim_some]

/-- An integer has characters, and each of them can stand in a number. -/
theorem toList_toString_eq_cons (n : Int) :
    ∃ c cs, (toString n).toList = c :: cs ∧ ∀ d ∈ c :: cs, isNumberChar d = true := by
  have hdigit {m : Nat} {d : Char} (hd : d ∈ Nat.toDigits 10 m) : isNumberChar d = true := by
    simp [isNumberChar, Nat.isDigit_of_mem_toDigits (by decide) (by decide) hd]
  cases n with
  | ofNat n =>
    obtain ⟨c, cs, hcs⟩ := List.exists_cons_of_ne_nil (Nat.toDigits_ne_nil (n := n) (b := 10))
    exact ⟨c, cs, (toList_toString_ofNat n).trans hcs, fun d hd => hdigit (hcs ▸ hd)⟩
  | negSucc n =>
    refine ⟨'-', _, toList_toString_negSucc n, fun d hd => ?_⟩
    rcases List.mem_cons.mp hd with rfl | hd
    · rfl
    · exact hdigit hd

theorem isGap_of_isNumberChar {c : Char} (hc : isNumberChar c = true) : isGap c = false := by
  cases hgap : isGap c with
  | false => rfl
  | true =>
    simp only [isGap, Bool.or_eq_true, decide_eq_true_eq] at hgap
    rcases hgap with ((rfl | rfl) | rfl) | rfl
    all_goals exact absurd hc (by decide)

/-- A text that begins with a character of a number begins with a number. -/
theorem nextToken_number {c : Char} (hc : isNumberChar c = true) (rest : List Char) :
    nextToken (c :: rest)
      = (ofLiteral? (c :: rest.takeWhile isNumberChar)).map fun v =>
          (.scalar v, rest.dropWhile isNumberChar) := by
  -- No other token begins with such a character.
  have hne (d : Char) (hd : isNumberChar d = false) : c ≠ d := by
    rintro rfl
    exact absurd hc (by simp [hd])
  rw [nextToken, if_pos hc]
  all_goals first
    | exact hne _ (by decide)
    | exact fun _ h => absurd h (hne _ (by decide))

/-- The characters of a number are taken up to where it ends. -/
theorem takeWhile_number {cs rest : List Char} (hcs : ∀ c ∈ cs, isNumberChar c = true)
    (hrest : EndsNumber rest) :
    (cs ++ rest).takeWhile isNumberChar = cs ∧ (cs ++ rest).dropWhile isNumberChar = rest := by
  rw [List.takeWhile_append_of_pos hcs, List.dropWhile_append_of_pos hcs]
  cases rest with
  | nil => simp
  | cons d rest => simp [hrest d rfl]

/-! ## Tokens -/

/-- A token stands first in the tokens of a text that it begins. -/
theorem tokens_eq_cons {c : Char} {rest after : List Char} {t : Token} (hc : isGap c = false)
    (h : nextToken (c :: rest) = some (t, after)) :
    tokens (c :: rest) = (tokens after).map (t :: ·) := by
  rw [tokens, if_neg (by simp [hc])]
  split
  · next t' after' h' =>
    rw [h] at h'
    cases h'
    rfl
  · next h' => rw [h] at h'; cases h'

/-- A text is cut into some tokens, wherever a number may end. -/
def CutsInto (cs : List Char) (ts : List Token) : Prop :=
  ∀ rest, EndsNumber rest → tokens (cs ++ rest) = (tokens rest).map (ts ++ ·)

theorem cutsInto_nil : CutsInto [] [] := fun rest _ => by simp

/-- The token that a single character is. -/
def mark? : Char → Option Token
  | '[' => some .openArray
  | ']' => some .closeArray
  | '\x7b' => some .openObject
  | '\x7d' => some .closeObject
  | ',' => some .comma
  | ':' => some .colon
  | _ => none

theorem tokens_mark {c : Char} {t : Token} (h : mark? c = some t) (rest : List Char) :
    tokens (c :: rest) = (tokens rest).map (t :: ·) := by
  unfold mark? at h
  split at h
  all_goals cases h
  all_goals exact tokens_eq_cons (by decide) rfl

theorem tokens_printText (s : String) (rest : List Char) :
    tokens ((printText s).toList ++ rest)
      = (tokens rest).map (.scalar (.string s) :: ·) := by
  have hnext : nextToken ('"' :: (s.toList.flatMap escapedChar ++ '"' :: rest))
      = some (.scalar (.string s), rest) := by
    rw [nextToken, readUnits_escaped]
    simp [unitChars?_toNat]
  simpa [printText] using tokens_eq_cons (by decide) hnext

theorem cutsInto_toString {n : Int} (h : fits64 n = true) :
    CutsInto (toString n).toList [.scalar (.int n)] := by
  intro rest hrest
  have hread := ofLiteral?_toString h
  obtain ⟨c, cs, hcs, hchars⟩ := toList_toString_eq_cons n
  obtain ⟨htake, hdrop⟩ := takeWhile_number (fun d hd => hchars d (List.mem_cons_of_mem c hd)) hrest
  have hc := hchars c List.mem_cons_self
  rw [hcs] at hread ⊢
  have hnext : nextToken (c :: (cs ++ rest)) = some (.scalar (.int n), rest) := by
    rw [nextToken_number hc, htake, hdrop, hread, Option.map_some]
  exact tokens_eq_cons (isGap_of_isNumberChar hc) hnext

/-- Pieces with commas between them are cut one after the other. -/
theorem cutsInto_intercalate {α : Type} {text : α → List Char} {toks : α → List Token}
    {as : List α} (h : ∀ a ∈ as, CutsInto (text a) (toks a)) :
    CutsInto ([','].intercalate (as.map text)) ([.comma].intercalate (as.map toks)) := by
  induction as with
  | nil => exact cutsInto_nil
  | cons a as ih =>
    cases as with
    | nil => simpa using h a List.mem_cons_self
    | cons b as =>
      intro rest hrest
      have ha := h a List.mem_cons_self
      have hrec := ih (fun x hx => h x (List.mem_cons_of_mem a hx)) rest hrest
      simp only [List.map_cons] at hrec ⊢
      simp only [List.intercalate_cons_cons, List.append_assoc, List.cons_append,
        List.nil_append]
      rw [ha _ (endsNumber_cons (by decide)), tokens_mark (c := ',') rfl, hrec]
      simp [Function.comp_def]

/-! ## Values -/

theorem printItems_eq_map (items : List Json) : printItems items = items.map print := by
  induction items with
  | nil => rfl
  | cons v items ih => rw [printItems, ih, List.map_cons]

/-- The text of a member: its name in front of its value. -/
def memberText (m : String × Json) : String :=
  printText m.1 ++ ":" ++ print m.2

theorem printMembers_eq_map (ms : List (String × Json)) :
    printMembers ms = ms.map memberText := by
  induction ms with
  | nil => rfl
  | cons m ms ih => rw [printMembers, ih, List.map_cons, memberText]

theorem tokensOfItems_eq_map (items : List Json) :
    tokensOfItems items = items.map tokensOf := by
  induction items with
  | nil => rfl
  | cons v items ih => rw [tokensOfItems, ih, List.map_cons]

/-- The tokens of a member. -/
def tokensOfMember (m : String × Json) : List Token :=
  .scalar (.string m.1) :: .colon :: tokensOf m.2

theorem tokensOfMembers_eq_map (ms : List (String × Json)) :
    tokensOfMembers ms = ms.map tokensOfMember := by
  induction ms with
  | nil => rfl
  | cons m ms ih => rw [tokensOfMembers, ih, List.map_cons, tokensOfMember]

theorem cutsInto_member {m : String × Json} (h : CutsInto (print m.2).toList (tokensOf m.2)) :
    CutsInto (memberText m).toList (tokensOfMember m) := by
  intro rest hrest
  have hchars : (memberText m).toList ++ rest
      = (printText m.1).toList ++ ':' :: ((print m.2).toList ++ rest) := by
    simp [memberText]
  rw [hchars, tokens_printText, tokens_mark (c := ':') rfl, h rest hrest]
  simp [tokensOfMember, Function.comp_def]

theorem cutsInto_array {items : List Json}
    (h : ∀ v ∈ items, CutsInto (print v).toList (tokensOf v)) :
    CutsInto (print (.array items)).toList (tokensOf (.array items)) := by
  intro rest _
  have hchars : (print (.array items)).toList ++ rest
      = '[' :: ([','].intercalate (items.map fun v => (print v).toList) ++ ']' :: rest) := by
    simp [print, printItems_eq_map, Function.comp_def]
  have hitems := cutsInto_intercalate h (']' :: rest) (endsNumber_cons (by decide))
  rw [hchars, tokens_mark (c := '[') rfl, hitems, tokens_mark (c := ']') rfl]
  simp [tokensOf, tokensOfItems_eq_map, Function.comp_def]

theorem cutsInto_object {ms : List (String × Json)}
    (h : ∀ m ∈ ms, CutsInto (print m.2).toList (tokensOf m.2)) :
    CutsInto (print (.object ms)).toList (tokensOf (.object ms)) := by
  intro rest _
  have hchars : (print (.object ms)).toList ++ rest
      = '\x7b' ::
        ([','].intercalate (ms.map fun m => (memberText m).toList) ++ '\x7d' :: rest) := by
    simp [print, printMembers_eq_map, Function.comp_def]
  have hmembers := cutsInto_intercalate (fun m hm => cutsInto_member (h m hm)) ('\x7d' :: rest)
    (endsNumber_cons (by decide))
  rw [hchars, tokens_mark (c := '\x7b') rfl, hmembers, tokens_mark (c := '\x7d') rfl]
  simp [tokensOf, tokensOfMembers_eq_map, Function.comp_def]

/-- The text of a plain value is cut into the tokens of the value. -/
theorem Plain.cutsInto {v : Json} (h : v.Plain) : CutsInto v.print.toList v.tokensOf := by
  induction h with
  | null => exact fun rest _ => tokens_eq_cons (by decide) rfl
  | bool b => cases b <;> exact fun rest _ => tokens_eq_cons (by decide) rfl
  | int fits => exact cutsInto_toString fits
  | string s => exact fun rest _ => tokens_printText s rest
  | array _ ih => exact cutsInto_array ih
  | object _ _ ih => exact cutsInto_object ih

end GeoAssets.Json
