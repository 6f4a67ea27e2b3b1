import GeoAssets.Directory

/-!
# Records and keys of directories

What the operations on directories do to the list of records, and how that list is related to
looking up: in a directory that files no key twice, the records are those that are found under some
key. Filing a record under a new key appends it; replacing or removing one leaves the others.
-/

namespace GeoAssets

/-- What is left after two filters is what neither of them takes. -/
theorem filter_not_filter_not {α : Type} (p q : α → Bool) (l : List α) :
    (l.filter (!p ·)).filter (!q ·) = l.filter fun a => !(p a || q a) := by
  rw [List.filter_filter]
  exact List.filter_congr fun a _ => by rw [Bool.not_or, Bool.and_comm]

namespace Directory

variable {κ ν : Type} [DecidableEq κ]

/-! ## Looking up -/

theorem contains_iff {d : Directory κ ν} {k : κ} :
    d.contains k = true ↔ ∃ v, d.get? k = some v :=
  Option.isSome_iff_exists

theorem contains_eq_false_iff {d : Directory κ ν} {k : κ} :
    d.contains k = false ↔ d.get? k = none := by
  simp [contains]

theorem get?_insert_self (d : Directory κ ν) (k : κ) (v : ν) : (d.insert k v).get? k = some v := by
  rw [get?_insert, if_pos rfl]

theorem get?_insert_of_ne {k k' : κ} (h : k ≠ k') (d : Directory κ ν) (v : ν) :
    (d.insert k v).get? k' = d.get? k' := by
  rw [get?_insert, if_neg h]

theorem get?_erase_self (d : Directory κ ν) (k : κ) : (d.erase k).get? k = none := by
  rw [get?_erase, if_pos rfl]

theorem get?_erase_of_ne {k k' : κ} (h : k ≠ k') (d : Directory κ ν) :
    (d.erase k).get? k' = d.get? k' := by
  rw [get?_erase, if_neg h]

/-- Replacing a record that is there changes the record and nothing else. -/
theorem get?_insert_of_some {d : Directory κ ν} {k : κ} {v : ν} (h : d.get? k = some v)
    (f : ν → ν) (k' : κ) :
    (d.insert k (f v)).get? k' = (d.get? k').map fun u => if k' = k then f u else u := by
  rw [get?_insert]
  by_cases hk : k = k'
  · subst hk
    simp [h]
  · have hne : ¬ k' = k := fun e => hk e.symm
    simp [hk, hne]

/-- Removing several keys. -/
theorem get?_foldl_erase (ks : List κ) (d : Directory κ ν) (k : κ) :
    (ks.foldl erase d).get? k = if k ∈ ks then none else d.get? k := by
  induction ks generalizing d with
  | nil => simp
  | cons x ks ih =>
    rw [List.foldl_cons, ih, get?_erase]
    by_cases hx : x = k
    · simp [hx]
    · have hne : ¬ k = x := fun e => hx e.symm
      simp [hx, hne]

/-- Entries are chosen by their keys. -/
theorem find?_filter_keys (p : κ → Bool) (k : κ) (es : List (κ × ν)) :
    find? k (es.filter fun e => p e.1) = if p k then find? k es else none := by
  induction es with
  | nil => simp [find?]
  | cons e es ih =>
    by_cases he : e.1 = k
    · subst he
      cases hp : p e.1 <;> simp [hp, find?, ih]
    · cases hp : p e.1 <;> simp [hp, find?, he, ih]

theorem entries_foldl_erase (ks : List κ) (d : Directory κ ν) :
    (ks.foldl erase d).entries = d.entries.filter fun e => !decide (e.1 ∈ ks) := by
  induction ks generalizing d with
  | nil => exact (List.filter_eq_self.mpr fun _ _ => rfl).symm
  | cons k ks ih =>
    rw [List.foldl_cons, ih, erase, List.filter_filter]
    refine List.filter_congr fun e _ => ?_
    simp only [List.mem_cons, ne_eq, decide_not, Bool.decide_or, Bool.not_or]
    exact Bool.and_comm _ _

/-! ## Keys -/

theorem mem_keys_iff_get? {d : Directory κ ν} {k : κ} : k ∈ d.keys ↔ ∃ v, d.get? k = some v := by
  rw [mem_keys_iff, contains_iff]

/-- Replacing a record that is there keeps the keys. -/
theorem keys_insert_of_some {d : Directory κ ν} {k : κ} {v : ν} (h : d.get? k = some v) (u : ν) :
    (d.insert k u).keys = d.keys := by
  obtain ⟨es⟩ := d
  show (file k u es).map (·.1) = es.map (·.1)
  replace h : find? k es = some v := h
  induction es with
  | nil => simp [find?] at h
  | cons e rest ih =>
    simp only [file]
    split
    · next he => simp [he]
    · next he =>
      simp only [find?, if_neg he] at h
      rw [List.map_cons, ih h, List.map_cons]

theorem entries_insert_of_none {d : Directory κ ν} {k : κ} (h : d.get? k = none) (v : ν) :
    (d.insert k v).entries = d.entries ++ [(k, v)] := by
  obtain ⟨es⟩ := d
  show file k v es = es ++ [(k, v)]
  replace h : find? k es = none := h
  induction es with
  | nil => rfl
  | cons e rest ih =>
    simp only [find?] at h
    split at h
    · simp at h
    · next he => rw [file, if_neg he, ih h, List.cons_append]

theorem values_insert_of_none {d : Directory κ ν} {k : κ} (h : d.get? k = none) (v : ν) :
    (d.insert k v).values = d.values ++ [v] := by
  rw [values, entries_insert_of_none h, List.map_append]
  rfl

/-- A record under a new key comes last. -/
theorem keys_insert_of_none {d : Directory κ ν} {k : κ} (h : d.get? k = none) (v : ν) :
    (d.insert k v).keys = d.keys ++ [k] := by
  rw [keys, entries_insert_of_none h, List.map_append]
  rfl

theorem keys_erase (d : Directory κ ν) (k : κ) : (d.erase k).keys = d.keys.filter (· ≠ k) := by
  rw [keys, erase, keys, List.filter_map]
  rfl

theorem keys_modify (d : Directory κ ν) (k : κ) (f : ν → ν) : (d.modify k f).keys = d.keys :=
  keys_mapValues d _

omit [DecidableEq κ] in
theorem length_keys (d : Directory κ ν) : d.keys.length = d.size :=
  List.length_map _

omit [DecidableEq κ] in
theorem distinct_empty : ({} : Directory κ ν).Distinct := List.nodup_nil

omit [DecidableEq κ] in
theorem Distinct.mapValues {d : Directory κ ν} (h : d.Distinct) (f : κ → ν → ν) :
    (d.mapValues f).Distinct := by
  rw [Distinct, keys_mapValues]
  exact h

theorem Distinct.modify {d : Directory κ ν} (h : d.Distinct) (k : κ) (f : ν → ν) :
    (d.modify k f).Distinct :=
  h.mapValues _

theorem Distinct.foldl_erase {d : Directory κ ν} (h : d.Distinct) (ks : List κ) :
    (ks.foldl Directory.erase d).Distinct := by
  induction ks generalizing d with
  | nil => exact h
  | cons k ks ih => exact ih (h.erase k)

omit [DecidableEq κ] in
theorem Distinct.entries_nodup {d : Directory κ ν} (h : d.Distinct) : d.entries.Nodup :=
  List.Pairwise.of_map (·.1) (fun _ _ hne he => hne (congrArg (·.1) he)) h

/-! ## Records -/

/-- What is found under a key is filed there. -/
theorem mem_entries_of_get? {d : Directory κ ν} {k : κ} {v : ν} (h : d.get? k = some v) :
    (k, v) ∈ d.entries := by
  obtain ⟨es⟩ := d
  show (k, v) ∈ es
  replace h : find? k es = some v := h
  induction es with
  | nil => simp [find?] at h
  | cons e rest ih =>
    simp only [find?] at h
    split at h
    · next he =>
      cases h
      rw [← he]
      exact List.mem_cons_self
    · exact List.mem_cons_of_mem _ (ih h)

theorem mem_values_of_get? {d : Directory κ ν} {k : κ} {v : ν} (h : d.get? k = some v) :
    v ∈ d.values :=
  List.mem_map_of_mem (mem_entries_of_get? h)

/-- In a directory that files no key twice, every entry is found under its key. -/
theorem Distinct.get?_of_mem {d : Directory κ ν} (h : d.Distinct) {e : κ × ν}
    (he : e ∈ d.entries) : d.get? e.1 = some e.2 := by
  obtain ⟨es⟩ := d
  show find? e.1 es = some e.2
  replace h : (es.map (·.1)).Nodup := h
  replace he : e ∈ es := he
  induction es with
  | nil => cases he
  | cons x rest ih =>
    rw [List.map_cons, List.nodup_cons] at h
    rcases List.mem_cons.mp he with rfl | hr
    · rw [find?, if_pos rfl]
    · have hne : x.1 ≠ e.1 := fun hx => h.1 (hx ▸ List.mem_map_of_mem hr)
      rw [find?, if_neg hne]
      exact ih h.2 hr

theorem Distinct.mem_entries_iff {d : Directory κ ν} (h : d.Distinct) {e : κ × ν} :
    e ∈ d.entries ↔ d.get? e.1 = some e.2 :=
  ⟨h.get?_of_mem, mem_entries_of_get?⟩

/-- In a directory that files no key twice, every record is found under some key. -/
theorem Distinct.exists_get?_of_mem {d : Directory κ ν} (h : d.Distinct) {v : ν}
    (hv : v ∈ d.values) : ∃ k, d.get? k = some v := by
  obtain ⟨e, he, rfl⟩ := List.mem_map.mp hv
  exact ⟨e.1, h.get?_of_mem he⟩

theorem Distinct.mem_values_iff {d : Directory κ ν} (h : d.Distinct) {v : ν} :
    v ∈ d.values ↔ ∃ k, d.get? k = some v :=
  ⟨h.exists_get?_of_mem, fun ⟨_, hk⟩ => mem_values_of_get? hk⟩

theorem Distinct.values_eq_nil {d : Directory κ ν} (h : d.Distinct)
    (hnone : ∀ k, d.get? k = none) : d.values = [] := by
  refine List.eq_nil_iff_forall_not_mem.mpr fun v hv => ?_
  obtain ⟨k, hk⟩ := h.exists_get?_of_mem hv
  rw [hnone k] at hk
  cases hk

/-- The record of a key and those of the other keys. -/
theorem Distinct.values_perm {d : Directory κ ν} (h : d.Distinct) {k : κ} {v : ν}
    (hv : d.get? k = some v) : d.values.Perm (v :: (d.erase k).values) := by
  obtain ⟨es⟩ := d
  show (es.map (·.2)).Perm (v :: (es.filter fun e => e.1 ≠ k).map (·.2))
  replace h : (es.map (·.1)).Nodup := h
  replace hv : find? k es = some v := hv
  induction es with
  | nil => cases hv
  | cons e rest ih =>
    obtain ⟨he, hrest⟩ := List.nodup_cons.mp h
    rw [find?] at hv
    split at hv
    · next hk =>
      obtain rfl := Option.some.inj hv
      -- no other entry has the key
      have hothers : rest.filter (fun e' => e'.1 ≠ k) = rest :=
        List.filter_eq_self.mpr fun e' he' => decide_eq_true fun hk' =>
          he (List.mem_map.mpr ⟨e', he', hk'.trans hk.symm⟩)
      rw [List.filter_cons_of_neg (by simp [hk]), hothers, List.map_cons]
    · next hk =>
      rw [List.filter_cons_of_pos (by simp [hk]), List.map_cons, List.map_cons]
      exact ((ih hrest hv).cons e.2).trans (List.Perm.swap v e.2 _)

/-- Looking up where only some entries of a directory are left. -/
theorem Distinct.get?_of_filter {d d' : Directory κ ν} (h : d.Distinct) {p : κ × ν → Bool}
    (hd : d'.entries = d.entries.filter p) (k : κ) :
    d'.get? k = (d.get? k).filter fun v => p (k, v) := by
  have hd' : d'.Distinct := by
    rw [Distinct, keys, hd]
    exact h.sublist (List.filter_sublist.map _)
  ext v
  rw [← hd'.mem_entries_iff (e := (k, v)), hd, List.mem_filter, h.mem_entries_iff,
    Option.filter_eq_some_iff]

/-! ## Changing every record -/

/-- Filing a record where it stands already changes nothing. -/
theorem insert_of_get? {d : Directory κ ν} {k : κ} {v : ν} (h : d.get? k = some v) :
    d.insert k v = d := by
  obtain ⟨es⟩ := d
  replace h : find? k es = some v := h
  show (⟨file k v es⟩ : Directory κ ν) = ⟨es⟩
  congr 1
  induction es with
  | nil => cases h
  | cons e rest ih =>
    rw [find?] at h
    rw [file]
    split at h
    · next he =>
      cases h
      rw [if_pos he, ← he]
    · next he => rw [if_neg he, ih h]

/-- Of two records filed under one key the second is kept. -/
theorem insert_insert (d : Directory κ ν) (k : κ) (u v : ν) :
    (d.insert k u).insert k v = d.insert k v := by
  obtain ⟨es⟩ := d
  show (⟨file k v (file k u es)⟩ : Directory κ ν) = ⟨file k v es⟩
  congr 1
  induction es with
  | nil => rw [file, file, file, if_pos rfl]
  | cons e rest ih =>
    rw [file, file]
    split
    · rw [file, if_pos rfl]
    · next he => rw [file, if_neg he, ih]

theorem mapValues_insert (d : Directory κ ν) (f : κ → ν → ν) (k : κ) (v : ν) :
    (d.insert k v).mapValues f = (d.mapValues f).insert k (f k v) := by
  obtain ⟨es⟩ := d
  show (⟨(file k v es).map _⟩ : Directory κ ν) = ⟨file k (f k v) (es.map _)⟩
  congr 1
  induction es with
  | nil => rfl
  | cons e rest ih =>
    rw [List.map_cons, file, file]
    split
    · rfl
    · rw [List.map_cons, ih]

theorem mapValues_erase (d : Directory κ ν) (f : κ → ν → ν) (k : κ) :
    (d.erase k).mapValues f = (d.mapValues f).erase k := by
  rw [mapValues, mapValues, erase, erase, List.filter_map]
  rfl

theorem mapValues_foldl_erase (f : κ → ν → ν) (ks : List κ) (d : Directory κ ν) :
    (ks.foldl Directory.erase d).mapValues f = ks.foldl Directory.erase (d.mapValues f) := by
  induction ks generalizing d with
  | nil => rfl
  | cons k ks ih => rw [List.foldl_cons, ih, mapValues_erase, List.foldl_cons]

omit [DecidableEq κ] in
theorem mapValues_mapValues (d : Directory κ ν) (f g : κ → ν → ν) :
    (d.mapValues g).mapValues f = d.mapValues fun k v => f k (g k v) := by
  rw [mapValues, mapValues, mapValues, List.map_map]
  rfl

theorem erase_modify (d : Directory κ ν) (k : κ) (f : ν → ν) :
    (d.modify k f).erase k = d.erase k := by
  rw [modify, ← mapValues_erase]
  obtain ⟨es⟩ := d
  show (⟨(es.filter fun e => e.1 ≠ k).map _⟩ : Directory κ ν) = ⟨es.filter fun e => e.1 ≠ k⟩
  congr 1
  refine (List.map_congr_left fun e he => ?_).trans (List.map_id _)
  have hk : e.1 ≠ k := of_decide_eq_true (List.mem_filter.mp he).2
  show (e.1, if e.1 = k then f e.2 else e.2) = e
  rw [if_neg hk]

/-- Changing a record into itself changes nothing. -/
theorem Distinct.modify_eq {d : Directory κ ν} (h : d.Distinct) {k : κ} {v : ν} {f : ν → ν}
    (hv : d.get? k = some v) (hf : f v = v) : d.modify k f = d := by
  have hentries : d.entries.map (fun e => (e.1, if e.1 = k then f e.2 else e.2)) = d.entries := by
    refine (List.map_congr_left fun e he => ?_).trans (List.map_id _)
    show (e.1, if e.1 = k then f e.2 else e.2) = e
    split
    · next hk =>
      have hfound := h.get?_of_mem he
      rw [hk, hv] at hfound
      rw [← Option.some.inj hfound, hf, Option.some.inj hfound]
    · rfl
  obtain ⟨es⟩ := d
  exact congrArg Directory.mk hentries

omit [DecidableEq κ] in
/-- What is measured of one record more is added. -/
theorem total_eq_of_perm {d d' : Directory κ ν} {v : ν} (h : d.values.Perm (v :: d'.values))
    (measure : ν → Nat) : d.total measure = measure v + d'.total measure :=
  h.foldr_eq' (fun u _ v _ n => Nat.add_left_comm (measure v) (measure u) n) 0

theorem contains_mapValues (d : Directory κ ν) (f : κ → ν → ν) (k : κ) :
    (d.mapValues f).contains k = d.contains k := by
  rw [contains, get?_mapValues, Option.isSome_map, contains]

omit [DecidableEq κ] in
theorem values_mapValues (d : Directory κ ν) (f : ν → ν) :
    (d.mapValues fun _ => f).values = d.values.map f := by
  rw [values, values, mapValues, List.map_map, List.map_map]
  rfl

end Directory

end GeoAssets
