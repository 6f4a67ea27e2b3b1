/-!
# Splitting a text at a separator

File names, layer names and object locations are cut out of a longer text at a separator character.
`pieces` is the one splitting function; its law is that joining the pieces gives the text back.
-/

namespace GeoAssets.Text

/-! ## Pieces -/

/-- The pieces of a text between the occurrences of a separator. There is always at least one. -/
def pieces (sep : Char) : List Char → List (List Char)
  | [] => [[]]
  | c :: rest =>
    if c = sep then [] :: pieces sep rest
    else
      match pieces sep rest with
      | [] => [[c]]
      | p :: ps => (c :: p) :: ps

theorem pieces_ne_nil (sep : Char) (cs : List Char) : pieces sep cs ≠ [] := by
  cases cs with
  | nil => simp [pieces]
  | cons c rest =>
    simp only [pieces]
    split
    · simp
    · split <;> simp

/-- Joining the pieces with the separator gives the text back. -/
theorem intercalate_pieces (sep : Char) (cs : List Char) :
    List.intercalate [sep] (pieces sep cs) = cs := by
  induction cs with
  | nil => rfl
  | cons c rest ih =>
    simp only [pieces]
    split
    · next h =>
      subst h
      cases hp : pieces c rest with
      | nil => exact absurd hp (pieces_ne_nil c rest)
      | cons p ps => rw [hp] at ih; simp [← ih, List.intercalate]
    · cases hp : pieces sep rest with
      | nil => exact absurd hp (pieces_ne_nil sep rest)
      | cons p ps =>
        rw [hp] at ih
        cases ps <;> simp [← ih, List.intercalate]

/-- A separator ends the pieces before it. -/
theorem pieces_append_cons (sep : Char) (cs rest : List Char) :
    pieces sep (cs ++ sep :: rest) = pieces sep cs ++ pieces sep rest := by
  induction cs with
  | nil => simp [pieces]
  | cons c cs ih =>
    rw [List.cons_append, pieces, pieces]
    split
    · rw [ih]
      rfl
    · rw [ih]
      cases hp : pieces sep cs with
      | nil => exact absurd hp (pieces_ne_nil sep cs)
      | cons p ps => rfl

/-- The pieces of texts that are joined with the separator are the pieces of each of them. -/
theorem pieces_intercalate (sep : Char) {texts : List (List Char)} (h : texts ≠ []) :
    pieces sep (List.intercalate [sep] texts) = texts.flatMap (pieces sep) := by
  induction texts with
  | nil => exact absurd rfl h
  | cons text texts ih =>
    cases texts with
    | nil => simp
    | cons next rest =>
      have hjoined : List.intercalate [sep] (text :: next :: rest) =
          text ++ sep :: List.intercalate [sep] (next :: rest) := by
        simp
      rw [hjoined, pieces_append_cons, ih (List.cons_ne_nil _ _)]
      rfl

/-- A text without the separator is one piece. -/
theorem pieces_of_not_mem {sep : Char} {cs : List Char} (h : sep ∉ cs) : pieces sep cs = [cs] := by
  induction cs with
  | nil => rfl
  | cons c cs ih =>
    obtain ⟨hc, hcs⟩ := not_or.mp (mt List.mem_cons.mpr h)
    rw [pieces, if_neg (Ne.symm hc), ih hcs]

/-- The pieces tell the text. -/
theorem pieces_inj (sep : Char) {cs ds : List Char} : pieces sep cs = pieces sep ds ↔ cs = ds := by
  refine ⟨fun h => ?_, congrArg (pieces sep)⟩
  rw [← intercalate_pieces sep cs, h, intercalate_pieces]

/-- The text before the first separator, the whole text if there is none. -/
def firstPiece (sep : Char) (s : String) : String :=
  String.ofList (s.toList.takeWhile (· != sep))

/-- The text after the last separator, the whole text if there is none. -/
def lastPiece (sep : Char) (s : String) : String :=
  String.ofList ((pieces sep s.toList).getLastD [])

/-! ## A first separator -/

/-- The texts before and after the first separator, if there is one. -/
def cutAt? (sep : Char) : List Char → Option (List Char × List Char)
  | [] => none
  | c :: rest => if c = sep then some ([], rest) else (cutAt? sep rest).map fun p => (c :: p.1, p.2)

/-- A text that is cut at its first separator is the two parts with the separator between them. -/
theorem eq_append_of_cutAt? {sep : Char} {cs before after : List Char}
    (h : cutAt? sep cs = some (before, after)) : cs = before ++ sep :: after := by
  induction cs generalizing before with
  | nil => simp [cutAt?] at h
  | cons c rest ih =>
    simp only [cutAt?] at h
    split at h
    · next hc => simp_all
    · obtain ⟨⟨b, a⟩, hp, he⟩ := Option.map_eq_some_iff.mp h
      simp only [Prod.mk.injEq] at he
      obtain ⟨rfl, rfl⟩ := he
      rw [ih hp]
      rfl

/-- The text after a given beginning, if the text has that beginning. -/
def afterStart? (start : List Char) (cs : List Char) : Option (List Char) :=
  if start.isPrefixOf cs then some (cs.drop start.length) else none

/-- Drops every copy of a character that ends the text. -/
def dropEnding (c : Char) (s : String) : String :=
  String.ofList (s.toList.reverse.dropWhile (· == c)).reverse

end GeoAssets.Text
