import GeoAssets.Text.Blank
import GeoAssets.Text.Split
import Mathlib.Data.List.DropRight

/-!
# Tidy texts

A text is tidy if it is not empty and has no blanks at its ends. What is left of a text once its
blanks are cut off is tidy, unless it is empty. This need not be so any more once slashes are cut
off in turn: a text may consist of slashes, and a blank may stand in front of them
(`Text.tidy_dropEnding_iff`).
-/

namespace GeoAssets.Text

/-- A text that is not empty and neither begins nor ends with a blank. -/
structure Tidy (s : String) : Prop where
  ne_empty : s ≠ ""
  head : ∀ c ∈ s.toList.head?, isBlank c = false
  last : ∀ c ∈ s.toList.getLast?, isBlank c = false

theorem tidy_iff {s : String} : Tidy s ↔ s ≠ "" ∧ s.toList.head?.all (!isBlank ·) = true ∧
    s.toList.getLast?.all (!isBlank ·) = true := by
  simp only [Option.all_eq_true, Bool.not_eq_true']
  exact ⟨fun h => ⟨h.ne_empty, h.head, h.last⟩, fun h => ⟨h.1, h.2.1, h.2.2⟩⟩

instance (s : String) : Decidable (Tidy s) :=
  decidable_of_iff' _ tidy_iff

/-! ## Ends of lists -/

theorem toList_ne_nil_iff {s : String} : s.toList ≠ [] ↔ s ≠ "" := by
  simp

theorem getLast?_rdropWhile {p : Char → Bool} {cs : List Char} {c : Char}
    (hc : c ∈ (cs.rdropWhile p).getLast?) : p c = false := by
  have hne : cs.rdropWhile p ≠ [] := by
    intro h
    rw [h] at hc
    cases hc
  rw [List.getLast?_eq_some_getLast hne] at hc
  cases hc
  simpa using List.rdropWhile_last_not p cs hne

/-! ## Blanks -/

theorem trimEnd_eq (cs : List Char) : trimEnd cs = cs.rdropWhile isBlank :=
  rfl

theorem head?_trimStart {cs : List Char} {c : Char} (hc : c ∈ (trimStart cs).head?) :
    isBlank c = false := by
  have h := List.head?_dropWhile_not isBlank cs
  rw [trimStart, Option.mem_def] at hc
  rw [hc] at h
  exact h

/-- What is left of a text without the blanks around it is tidy. -/
theorem tidy_trim {s : String} (h : trim s ≠ "") : Tidy (trim s) where
  ne_empty := h
  head := by
    intro c hc
    rw [trim, String.toList_ofList, trimEnd_eq] at hc
    obtain ⟨rest, hrest⟩ := List.rdropWhile_prefix isBlank (trimStart s.toList)
    exact head?_trimStart (hrest ▸ List.mem_head?_append_of_mem_head? hc)
  last := by
    intro c hc
    rw [trim, String.toList_ofList, trimEnd_eq] at hc
    exact getLast?_rdropWhile hc

/-! ## Endings -/

variable {c : Char} {s : String}

theorem toList_dropEnding (c : Char) (s : String) :
    (dropEnding c s).toList = s.toList.rdropWhile (· == c) := by
  rw [dropEnding, String.toList_ofList]
  rfl

/-- No copy of the character is left at the end. -/
theorem ne_of_getLast?_dropEnding {x : Char} (hx : x ∈ (dropEnding c s).toList.getLast?) :
    x ≠ c := by
  rw [toList_dropEnding] at hx
  simpa using getLast?_rdropWhile hx

/-- A text ends with copies of a character with nothing or a blank in front of them. -/
def EndsLoosely (c : Char) (s : String) : Prop :=
  ∃ start n, s.toList = start ++ List.replicate (n + 1) c ∧ ∀ x ∈ start.getLast?, isBlank x = true

/-- A text is what is left of it, and the copies that were dropped. -/
theorem exists_eq_append_replicate (c : Char) (s : String) :
    ∃ n, s.toList = (dropEnding c s).toList ++ List.replicate n c := by
  refine ⟨(s.toList.rtakeWhile (· == c)).length, ?_⟩
  have hcopies : s.toList.rtakeWhile (· == c) =
      List.replicate (s.toList.rtakeWhile (· == c)).length c :=
    List.eq_replicate_iff.mpr ⟨rfl, fun x hx => by simpa using List.mem_rtakeWhile_imp hx⟩
  rw [toList_dropEnding, ← hcopies, List.rdropWhile_append_rtakeWhile]

/-- Copies of a character are dropped up to what is in front of them. -/
theorem rdropWhile_append_replicate {start : List Char} (hstart : ∀ x ∈ start.getLast?, x ≠ c)
    (n : Nat) : (start ++ List.replicate n c).rdropWhile (· == c) = start := by
  induction n with
  | zero =>
    rw [List.replicate_zero, List.append_nil, List.rdropWhile_eq_self_iff]
    intro hne
    simpa using hstart _ (List.getLast?_eq_some_getLast hne)
  | succ n ih =>
    rw [List.replicate_succ', ← List.append_assoc, List.rdropWhile_concat_pos _ _ _ (by simp), ih]

/-- What is left of a tidy text does not begin with a blank. -/
theorem head_dropEnding (hs : Tidy s) : ∀ x ∈ (dropEnding c s).toList.head?, isBlank x = false := by
  intro x hx
  obtain ⟨n, hn⟩ := exists_eq_append_replicate c s
  exact hs.head x (hn ▸ List.mem_head?_append_of_mem_head? hx)

/-- A tidy text that loses the copies of a character at its end is tidy unless they are all of it or
follow a blank. -/
theorem tidy_dropEnding_iff (hc : isBlank c = false) (hs : Tidy s) :
    Tidy (dropEnding c s) ↔ ¬ EndsLoosely c s := by
  constructor
  · rintro htidy ⟨start, n, hstart, hblank⟩
    have hleft : (dropEnding c s).toList = start := by
      rw [toList_dropEnding, hstart]
      refine rdropWhile_append_replicate (fun x hx hxc => ?_) _
      rw [← hxc, hblank x hx] at hc
      cases hc
    subst hleft
    have hlast := List.getLast?_eq_some_getLast (toList_ne_nil_iff.mpr htidy.ne_empty)
    exact Bool.false_ne_true ((htidy.last _ hlast).symm.trans (hblank _ hlast))
  · intro htight
    obtain ⟨n, hn⟩ := exists_eq_append_replicate c s
    cases n with
    | zero =>
      -- nothing was dropped
      rw [List.replicate_zero, List.append_nil, String.toList_inj] at hn
      rwa [← hn]
    | succ n =>
      have hlast : ¬ ∀ x ∈ (dropEnding c s).toList.getLast?, isBlank x = true := fun h =>
        htight ⟨_, n, hn, h⟩
      constructor
      case ne_empty =>
        intro hnil
        simp [hnil] at hlast
      case head =>
        exact head_dropEnding hs
      case last =>
        intro x hx
        by_contra hblank
        refine hlast fun y hy => ?_
        rwa [Option.mem_unique hy hx, ← Bool.not_eq_false]

end GeoAssets.Text
