import GeoAssets.Json.Codec

/-!
# Record layouts

A record is written as an object with one member per field, in the order of the layout. It is read
from such an object, where members that the layout does not know are ignored, or from an array of
its fields in order. A layout is put together from single fields with `Layout.and`, and turned into
the layout of a structure with `Layout.imap`.

`Layout.Reads` is the law: a layout reads from any look-up that agrees with what it wrote on its own
names. It passes from the parts to the whole as long as the parts share no name.
-/

namespace GeoAssets

/-- The layout of a record's fields. -/
structure Layout (α : Type) where
  /-- The names of the fields. -/
  names : List String
  /-- The members that are written. -/
  write : α → List (String × Json)
  /-- Reads from members that are found by name. -/
  readNamed : (String → Option Json) → Option α
  /-- Reads from the values that stand first in an array, and gives back the others. -/
  readListed : List Json → Option (α × List Json)

namespace Layout

variable {α β γ : Type}

/-! ## Single fields -/

/-- A field, where it may be left out: `absent` is its value if an object has no such member,
`short` its value if an array ends before it, and `omits` says which values are not written. -/
def field (name : String) (c : Codec α) (absent short : Option α) (omits : α → Bool) :
    Layout α where
  names := [name]
  write a := if omits a then [] else [(name, c.encode a)]
  readNamed look :=
    match look name with
    | some v => c.decode v
    | none => absent
  readListed
    | [] => short.map fun a => (a, [])
    | v :: rest => (c.decode v).map fun a => (a, rest)

/-- A field that must be there. -/
def required (name : String) (c : Codec α) : Layout α :=
  field name c none none fun _ => false

/-- A field that has a value when it is left out. It is always written. -/
def defaulted (name : String) (c : Codec α) (value : α) : Layout α :=
  field name c (some value) (some value) fun _ => false

/-- A field that may be missing and is then not written. -/
def optional (name : String) (c : Codec α) : Layout (Option α) :=
  field name c.option (some none) (some none) Option.isNone

/-- A field that may be missing, which is written as `null`. In an array it must be there. -/
def nullable (name : String) (c : Codec α) : Layout (Option α) :=
  field name c.option (some none) none fun _ => false

/-- A list that is empty when it is left out, and left out when it is empty. -/
def listed (name : String) (c : Codec α) : Layout (List α) :=
  field name c.list (some []) (some []) List.isEmpty

/-! ## Several fields -/

/-- The fields of one layout and then those of another. -/
def and (l : Layout α) (m : Layout β) : Layout (α × β) where
  names := l.names ++ m.names
  write p := l.write p.1 ++ m.write p.2
  readNamed look := do
    let a ← l.readNamed look
    let b ← m.readNamed look
    pure (a, b)
  readListed vs := do
    let (a, vs) ← l.readListed vs
    let (b, vs) ← m.readListed vs
    pure ((a, b), vs)

/-- The same fields for another type. -/
def imap (l : Layout α) (of : α → β) (back : β → α) : Layout β where
  names := l.names
  write b := l.write (back b)
  readNamed look := (l.readNamed look).map of
  readListed vs := (l.readListed vs).map fun p => (of p.1, p.2)

/-! ## Names -/

@[simp]
theorem names_required (name : String) (c : Codec α) : (required name c).names = [name] :=
  rfl

@[simp]
theorem names_defaulted (name : String) (c : Codec α) (value : α) :
    (defaulted name c value).names = [name] :=
  rfl

@[simp]
theorem names_optional (name : String) (c : Codec α) : (optional name c).names = [name] :=
  rfl

@[simp]
theorem names_and (l : Layout α) (m : Layout β) : (l.and m).names = l.names ++ m.names :=
  rfl

/-! ## The law -/

/-- Only the layout's own names are written, and what was written is read back from every look-up
that agrees with it on these names. -/
structure Reads (l : Layout α) : Prop where
  mem_names : ∀ a, ∀ m ∈ l.write a, m.1 ∈ l.names
  readNamed_eq : ∀ a (look : String → Option Json),
    (∀ n ∈ l.names, look n = (l.write a).lookup n) → l.readNamed look = some a

/-- A single field reads what it wrote, if the values that it does not write are the one that stands
for a missing member. -/
theorem field_reads {name : String} {c : Codec α} {absent short : Option α} {omits : α → Bool}
    (hc : c.RoundTrips) (ho : ∀ a, omits a = true → absent = some a) :
    (field name c absent short omits).Reads where
  mem_names a m hm := by
    simp only [field] at hm ⊢
    split at hm
    · cases hm
    · simp only [List.mem_singleton] at hm; simp [hm]
  readNamed_eq a look hl := by
    have h := hl name (by simp [field])
    simp only [field] at h ⊢
    split at h
    · next hom => simp only [List.lookup_nil] at h; rw [h]; exact ho a hom
    · simp only [List.lookup_cons, beq_self_eq_true] at h; rw [h]; exact hc a

theorem required_reads {name : String} {c : Codec α} (hc : c.RoundTrips) :
    (required name c).Reads :=
  field_reads hc nofun

theorem defaulted_reads {name : String} {c : Codec α} {value : α} (hc : c.RoundTrips) :
    (defaulted name c value).Reads :=
  field_reads hc nofun

theorem optional_reads {name : String} {c : Codec α} (hc : c.RoundTrips) (hn : c.NeverNull) :
    (optional name c).Reads :=
  field_reads (Codec.option_roundTrips hc hn) fun a h => by cases a <;> simp_all

theorem nullable_reads {name : String} {c : Codec α} (hc : c.RoundTrips) (hn : c.NeverNull) :
    (nullable name c).Reads :=
  field_reads (Codec.option_roundTrips hc hn) nofun

theorem listed_reads {name : String} {c : Codec α} (hc : c.RoundTrips) : (listed name c).Reads :=
  field_reads (Codec.list_roundTrips hc) fun a h => by cases a <;> simp_all

/-- A name that no member has is not found. -/
theorem lookup_eq_none {name : String} {ms : List (String × Json)}
    (h : ∀ m ∈ ms, m.1 ≠ name) : ms.lookup name = none := by
  induction ms with
  | nil => rfl
  | cons m ms ih =>
    obtain ⟨n, v⟩ := m
    have hb : (name == n) = false := by
      simpa using fun e => h (n, v) List.mem_cons_self e.symm
    simp only [List.lookup_cons, hb]
    exact ih fun x hx => h x (List.mem_cons_of_mem (n, v) hx)

/-- Looking up in two lists of members one after the other. -/
theorem lookup_append (name : String) (ms ns : List (String × Json)) :
    (ms ++ ns).lookup name = (ms.lookup name).or (ns.lookup name) := by
  induction ms with
  | nil => rfl
  | cons m ms ih =>
    obtain ⟨n, v⟩ := m
    simp only [List.cons_append, List.lookup_cons]
    split
    · rfl
    · exact ih

/-- Two layouts that share no name read together what they wrote together. -/
theorem and_reads {l : Layout α} {m : Layout β} (hl : l.Reads) (hm : m.Reads)
    (hd : ∀ n ∈ l.names, n ∉ m.names) : (l.and m).Reads where
  mem_names p x hx := by
    rcases List.mem_append.mp hx with h | h
    · exact List.mem_append_left _ (hl.mem_names p.1 x h)
    · exact List.mem_append_right _ (hm.mem_names p.2 x h)
  readNamed_eq p look h := by
    have h1 : l.readNamed look = some p.1 := hl.readNamed_eq p.1 look fun n hn => by
      rw [h n (List.mem_append_left _ hn)]
      show (l.write p.1 ++ m.write p.2).lookup n = _
      have hother : (m.write p.2).lookup n = none :=
        lookup_eq_none fun x hx e => hd n hn (e ▸ hm.mem_names p.2 x hx)
      rw [lookup_append, hother, Option.or_none]
    have h2 : m.readNamed look = some p.2 := hm.readNamed_eq p.2 look fun n hn => by
      rw [h n (List.mem_append_right _ hn)]
      show (l.write p.1 ++ m.write p.2).lookup n = _
      have hother : (l.write p.1).lookup n = none :=
        lookup_eq_none fun x hx e => hd n (e ▸ hl.mem_names p.1 x hx) hn
      rw [lookup_append, hother, Option.none_or]
    simp [Layout.and, h1, h2]

theorem imap_reads {l : Layout α} {of : α → β} {back : β → α} (hl : l.Reads)
    (h : ∀ b, of (back b) = b) : (l.imap of back).Reads where
  mem_names b := hl.mem_names (back b)
  readNamed_eq b look hlook := by
    show (l.readNamed look).map of = some b
    rw [hl.readNamed_eq (back b) look hlook]
    simp [h]

/-! ## Records -/

/-- Reads a record from an object or an array; an array may not have values left over. -/
def read (l : Layout α) : Json → Option α
  | .object members => l.readNamed (members.lookup ·)
  | .array items =>
    match l.readListed items with
    | some (a, []) => some a
    | _ => none
  | _ => none

/-- Records, as objects. -/
def codec (l : Layout α) : Codec α where
  encode a := .object (l.write a)
  decode := l.read

theorem codec_roundTrips {l : Layout α} (h : l.Reads) : l.codec.RoundTrips := fun a =>
  h.readNamed_eq a _ fun _ _ => rfl

theorem codec_neverNull {l : Layout α} : l.codec.NeverNull := fun _ => nofun

end Layout

end GeoAssets
