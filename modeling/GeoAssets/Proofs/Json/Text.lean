import GeoAssets.Proofs.Json.Tokens

/-!
# Printed values are read back

A value whose integers fit 64 bits and whose objects have no member twice is read back from its
compact text (`Plain.read?_print`): its tokens, folded over the open arrays and objects, complete
the value where a value may stand (`Plain.completes`).
-/

namespace GeoAssets.Json

/-! ## Open values -/

/-- What the reader does with the tokens of a value where a value may stand: it completes it. -/
def Completes (v : Json) : Prop :=
  ∀ s : State, s.awaitsValue = true → v.tokensOf.foldlM State.step s = s.complete v

theorem completes_scalar {v : Json} (h : v.tokensOf = [.scalar v]) : Completes v := by
  intro s _
  rw [h]
  simp [State.step]

/-- Pieces with commas between them are taken one after the other, if each piece is taken where the
pieces before it have been, and a comma opens the place for the next. -/
theorem foldlM_intercalate {α : Type} (toks : α → List Token) (opened closed : List α → State)
    (hcomma : ∀ done, State.step (closed done) .comma = some (opened done)) (done : List α)
    {as : List α} (hne : as ≠ [])
    (hpiece : ∀ before a after, done ++ as = before ++ a :: after →
      (toks a).foldlM State.step (opened before) = some (closed (before ++ [a]))) :
    ([.comma].intercalate (as.map toks)).foldlM State.step (opened done) =
      some (closed (done ++ as)) := by
  induction as generalizing done with
  | nil => exact absurd rfl hne
  | cons a as ih =>
    have ha := hpiece done a as rfl
    cases as with
    | nil => simpa using ha
    | cons b as =>
      have hrest := ih (done ++ [a]) (List.cons_ne_nil b as) (by simpa using hpiece)
      simp only [List.map_cons] at hrest ⊢
      rw [List.intercalate_cons_cons, List.append_assoc, List.foldlM_append, ha]
      simp only [Option.bind_eq_bind, Option.bind_some, List.singleton_append, List.foldlM_cons,
        hcomma]
      rw [hrest, List.append_assoc, List.singleton_append]

theorem completes_array {items : List Json} (h : ∀ v ∈ items, Completes v) :
    Completes (.array items) := by
  intro s hs
  simp only [tokensOf, tokensOfItems_eq_map, List.foldlM_cons, List.foldlM_append, State.step, hs,
    if_true, Option.bind_eq_bind, Option.bind_some]
  cases items with
  | nil => simp
  | cons v items =>
    have hitems := foldlM_intercalate tokensOf
      (fun done => ⟨.array done.reverse true :: s.frames, s.result⟩)
      (fun done => ⟨.array done.reverse false :: s.frames, s.result⟩) (fun _ => rfl) []
      (List.cons_ne_nil v items) fun before w after hw => by
        rw [List.nil_append] at hw
        have hmem : w ∈ v :: items := by
          rw [hw]
          simp
        rw [h w hmem _ rfl]
        simp [State.complete]
    simp only [List.reverse_nil, List.nil_append] at hitems
    rw [hitems]
    simp

/-- A member is put behind those before it, if none of them has its name. -/
theorem foldlM_member {m : String × Json} (h : Completes m.2) {done : List (String × Json)}
    (hd : m.1 ∉ done.map Prod.fst) (frames : List Frame) (r : Option Json) :
    (tokensOfMember m).foldlM State.step ⟨.object done true :: frames, r⟩
      = some ⟨.object (done ++ [m]) false :: frames, r⟩ := by
  have hv := h ⟨.valued done m.1 :: frames, r⟩ rfl
  simp only [tokensOfMember, List.foldlM_cons, State.step, State.complete, Option.bind_eq_bind,
    Option.bind_some, if_neg hd, hv]

theorem completes_object {ms : List (String × Json)} (h : ∀ m ∈ ms, Completes m.2)
    (hd : (ms.map Prod.fst).Nodup) : Completes (.object ms) := by
  intro s hs
  simp only [tokensOf, tokensOfMembers_eq_map, List.foldlM_cons, List.foldlM_append, State.step, hs,
    if_true, Option.bind_eq_bind, Option.bind_some]
  cases ms with
  | nil => simp
  | cons m ms =>
    have hmembers := foldlM_intercalate tokensOfMember
      (fun done => ⟨.object done true :: s.frames, s.result⟩)
      (fun done => ⟨.object done false :: s.frames, s.result⟩) (fun _ => rfl) []
      (List.cons_ne_nil m ms) fun before m' after hm' => by
        -- the names are distinct, so no member before this one has its name
        rw [List.nil_append] at hm'
        rw [hm', List.map_append, List.nodup_append] at hd
        have hmem : m' ∈ m :: ms := by
          rw [hm']
          simp
        exact foldlM_member (h m' hmem)
          (fun hbefore => hd.2.2 m'.1 hbefore m'.1 List.mem_cons_self rfl) s.frames s.result
    simp only [List.nil_append] at hmembers
    rw [hmembers]
    simp

theorem Plain.completes {v : Json} (h : v.Plain) : Completes v := by
  induction h with
  | null => exact completes_scalar rfl
  | bool b => exact completes_scalar rfl
  | int _ => exact completes_scalar rfl
  | string s => exact completes_scalar rfl
  | array _ ih => exact completes_array ih
  | object distinct _ ih => exact completes_object ih distinct

/-! ## Reading -/

/-- A plain value is read back from its text. -/
theorem Plain.read?_print {v : Json} (h : v.Plain) : read? v.print = some v := by
  have hcut := h.cutsInto [] nofun
  have hfold := h.completes ⟨[], none⟩ rfl
  rw [List.append_nil, tokens] at hcut
  simp only [read?, hcut]
  simp [hfold, State.complete]

end GeoAssets.Json
