/-!
# Directories

A finite map from keys to records as a list of entries in the order in which the keys were first
filed. What a directory does is said through `get?`; no operation files a key twice (`Distinct`).
-/

namespace GeoAssets

/-- Records filed under keys. -/
structure Directory (κ ν : Type) where
  entries : List (κ × ν) := []
  deriving DecidableEq, Repr, Inhabited

namespace Directory

variable {κ ν : Type} [DecidableEq κ]

/-! ## Looking up -/

/-- The first record filed under a key in a list of entries. -/
def find? (k : κ) : List (κ × ν) → Option ν
  | [] => none
  | e :: rest => if e.1 = k then some e.2 else find? k rest

/-- The record filed under a key. -/
def get? (d : Directory κ ν) (k : κ) : Option ν :=
  find? k d.entries

/-- Decides whether a record is filed under a key. -/
def contains (d : Directory κ ν) (k : κ) : Bool :=
  (d.get? k).isSome

/-- The keys, in the order in which they were filed. -/
def keys (d : Directory κ ν) : List κ :=
  d.entries.map (·.1)

/-- The records, in the order in which their keys were filed. -/
def values (d : Directory κ ν) : List ν :=
  d.entries.map (·.2)

/-- The number of records. -/
def size (d : Directory κ ν) : Nat :=
  d.entries.length

/-- The sum of what is measured of each record. -/
def total (d : Directory κ ν) (measure : ν → Nat) : Nat :=
  d.values.foldr (fun v n => measure v + n) 0

/-- No key is filed twice. -/
def Distinct (d : Directory κ ν) : Prop :=
  d.keys.Nodup

/-! ## Filing -/

/-- Replaces the record of a key, or appends an entry. -/
def file (k : κ) (v : ν) : List (κ × ν) → List (κ × ν)
  | [] => [(k, v)]
  | e :: rest => if e.1 = k then (k, v) :: rest else e :: file k v rest

/-- Files a record under a key, in place of the record that stood there. -/
def insert (d : Directory κ ν) (k : κ) (v : ν) : Directory κ ν :=
  ⟨file k v d.entries⟩

/-- Removes the record of a key. -/
def erase (d : Directory κ ν) (k : κ) : Directory κ ν :=
  ⟨d.entries.filter fun e => e.1 ≠ k⟩

/-- Changes every record. -/
def mapValues (d : Directory κ ν) (f : κ → ν → ν) : Directory κ ν :=
  ⟨d.entries.map fun e => (e.1, f e.1 e.2)⟩

/-- Changes the record of a key, if there is one. -/
def modify (d : Directory κ ν) (k : κ) (f : ν → ν) : Directory κ ν :=
  d.mapValues fun k' v => if k' = k then f v else v

/-! ## What the operations do -/

theorem find?_file (k k' : κ) (v : ν) (es : List (κ × ν)) :
    find? k' (file k v es) = if k = k' then some v else find? k' es := by
  induction es with
  | nil => simp [file, find?]
  | cons e rest ih =>
    simp only [file]
    split
    · next h => simp only [find?, h]; split <;> rfl
    · next h =>
      simp only [find?, ih]
      split
      · next he => rw [if_neg (fun hk => h (he.trans hk.symm))]
      · rfl

theorem get?_insert (d : Directory κ ν) (k k' : κ) (v : ν) :
    (d.insert k v).get? k' = if k = k' then some v else d.get? k' :=
  find?_file k k' v d.entries

theorem find?_filter_ne (k k' : κ) (es : List (κ × ν)) :
    find? k' (es.filter fun e => e.1 ≠ k) = if k = k' then none else find? k' es := by
  induction es with
  | nil => simp [find?]
  | cons e rest ih =>
    by_cases h : e.1 = k
    · rw [List.filter_cons_of_neg (by simp [h]), ih]
      simp only [find?, h]
      split <;> rfl
    · rw [List.filter_cons_of_pos (by simp [h])]
      simp only [find?, ih]
      split
      · next he => rw [if_neg (fun hk => h (he.trans hk.symm))]
      · rfl

theorem get?_erase (d : Directory κ ν) (k k' : κ) :
    (d.erase k).get? k' = if k = k' then none else d.get? k' :=
  find?_filter_ne k k' d.entries

theorem get?_mapValues (d : Directory κ ν) (f : κ → ν → ν) (k : κ) :
    (d.mapValues f).get? k = (d.get? k).map (f k) := by
  show find? k (d.entries.map _) = (find? k d.entries).map _
  induction d.entries with
  | nil => rfl
  | cons e rest ih =>
    simp only [List.map_cons, find?, ih]
    split
    · next h => rw [← h]; rfl
    · rfl

theorem get?_modify (d : Directory κ ν) (k k' : κ) (f : ν → ν) :
    (d.modify k f).get? k' = if k' = k then (d.get? k').map f else d.get? k' := by
  rw [modify, get?_mapValues]
  split
  · rfl
  · exact Option.map_id'

/-! ## Keys -/

theorem mem_keys_file (k k' : κ) (v : ν) (es : List (κ × ν)) :
    k' ∈ (file k v es).map (·.1) ↔ k' = k ∨ k' ∈ es.map (·.1) := by
  induction es with
  | nil => simp [file]
  | cons e rest ih =>
    simp only [file]
    split
    · next h => simp [h]
    · simp only [List.map_cons, List.mem_cons, ih]
      exact or_left_comm

theorem nodup_keys_file (k : κ) (v : ν) {es : List (κ × ν)} (h : (es.map (·.1)).Nodup) :
    ((file k v es).map (·.1)).Nodup := by
  induction es with
  | nil => simp [file]
  | cons e rest ih =>
    simp only [List.map_cons, List.nodup_cons] at h
    simp only [file]
    split
    · next he => simpa [← he] using h
    · next he =>
      simp only [List.map_cons, List.nodup_cons, mem_keys_file]
      exact ⟨fun hm => hm.elim he h.1, ih h.2⟩

/-- Filing a record keeps the keys distinct. -/
theorem Distinct.insert {d : Directory κ ν} (h : d.Distinct) (k : κ) (v : ν) :
    (d.insert k v).Distinct :=
  nodup_keys_file k v h

/-- Removing a record keeps the keys distinct. -/
theorem Distinct.erase {d : Directory κ ν} (h : d.Distinct) (k : κ) : (d.erase k).Distinct :=
  h.sublist (List.filter_sublist.map _)

omit [DecidableEq κ] in
/-- Changing records keeps the keys. -/
theorem keys_mapValues (d : Directory κ ν) (f : κ → ν → ν) : (d.mapValues f).keys = d.keys := by
  simp [keys, mapValues]

/-- A key is filed exactly if it is found. -/
theorem mem_keys_iff (d : Directory κ ν) (k : κ) : k ∈ d.keys ↔ d.contains k = true := by
  show k ∈ d.entries.map (·.1) ↔ (find? k d.entries).isSome = true
  induction d.entries with
  | nil => simp [find?]
  | cons e rest ih =>
    simp only [List.map_cons, List.mem_cons, find?, ih]
    split
    · next h => simp [h]
    · next h => simp [Ne.symm h]

end Directory

end GeoAssets
