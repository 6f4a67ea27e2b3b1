import GeoAssets.Json.Layout
import GeoAssets.Proofs.Json.Text

/-!
# Codecs and JSON text

What a codec writes goes through JSON text if it is plain. Codecs that are put together from parts
that write plain values write plain values, and so does the layout of a record whose fields have
distinct names. Together with the law of codecs this makes a codec persist: what it wrote is read
back, from the value and from the text of the value.
-/

namespace GeoAssets

namespace Codec

variable {α β : Type}

/-! ## Text -/

/-- The JSON text of a value. -/
def text (c : Codec α) (a : α) : String :=
  (c.encode a).print

/-- Reads a value from JSON text. -/
def parse? (c : Codec α) (text : String) : Option α :=
  (Json.read? text).bind c.decode

/-- Whatever was written is read back, as a JSON value and as JSON text. -/
structure Persists (c : Codec α) : Prop where
  decode_encode : ∀ a, c.decode (c.encode a) = some a
  parse?_text : ∀ a, c.parse? (c.text a) = some a

/-- Only plain values are written. -/
class WritesPlain (c : Codec α) : Prop where
  plain : ∀ a, (c.encode a).Plain

theorem persists {c : Codec α} [c.WritesPlain] (h : c.RoundTrips) : c.Persists where
  decode_encode := h
  parse?_text a := by
    rw [parse?, text, (WritesPlain.plain a).read?_print, Option.bind_some, h a]

/-! ## Parts -/

instance : string.WritesPlain where
  plain := .string

instance : bool.WritesPlain where
  plain := .bool

/-- An integer of 64 bits is plain. -/
theorem plain_int {n : Int} (hmin : Int64.minValue.toInt ≤ n) (hmax : n < UInt64.size) :
    (Json.int n).Plain :=
  .int (by simp only [Json.fits64, hmin, hmax, decide_true, Bool.and_self])

/-- A natural number below a bound of at most 64 bits is plain. -/
theorem plain_of_lt {bound n : Nat} (hb : bound ≤ UInt64.size) (hn : n < bound) :
    (Json.int n).Plain := by
  have hmin : Int64.minValue.toInt ≤ 0 := by decide
  exact plain_int (by omega) (by omega)

instance : uint8.WritesPlain where
  plain n := plain_of_lt (by decide) n.toNat_lt_size

instance : uint16.WritesPlain where
  plain n := plain_of_lt (by decide) n.toNat_lt_size

instance : uint32.WritesPlain where
  plain n := plain_of_lt (by decide) n.toNat_lt_size

instance : uint64.WritesPlain where
  plain n := plain_of_lt (by decide) n.toNat_lt_size

instance : int32.WritesPlain where
  plain n := plain_int (Int.le_trans (by decide) n.minValue_le_toInt)
    (Int.lt_of_le_of_lt n.toInt_le (by decide))

instance {rule : NameRule} {all : List α} {name : α → String} :
    (namedBy rule all name).WritesPlain where
  plain a := .string (name a)

variable {c : Codec α} [c.WritesPlain]

instance : c.list.WritesPlain where
  plain as := by
    refine .array fun v hv => ?_
    obtain ⟨a, _, rfl⟩ := List.mem_map.mp hv
    exact WritesPlain.plain a

instance : c.option.WritesPlain where
  plain
    | none => .null
    | some a => WritesPlain.plain (c := c) a

instance {of : α → Option β} {back : β → α} : (c.via of back).WritesPlain where
  plain b := WritesPlain.plain (c := c) (back b)

end Codec

/-! ## Records -/

namespace Layout

variable {α β : Type}

/-- The members are written in the order of their names, and are plain. -/
class WritesPlain (l : Layout α) : Prop where
  sublist : ∀ a, ((l.write a).map Prod.fst).Sublist l.names
  plain : ∀ a, ∀ m ∈ l.write a, m.2.Plain

section Fields

variable {name : String} {c : Codec α} [c.WritesPlain]

instance {absent short : Option α} {omits : α → Bool} :
    (field name c absent short omits).WritesPlain where
  sublist a := by
    simp only [field]
    split <;> simp
  plain a m hm := by
    simp only [field] at hm
    split at hm
    · cases hm
    · rw [List.mem_singleton.mp hm]
      exact Codec.WritesPlain.plain a

instance : (required name c).WritesPlain :=
  inferInstanceAs (field ..).WritesPlain

instance {value : α} : (defaulted name c value).WritesPlain :=
  inferInstanceAs (field ..).WritesPlain

instance : (optional name c).WritesPlain :=
  inferInstanceAs (field ..).WritesPlain

instance : (nullable name c).WritesPlain :=
  inferInstanceAs (field ..).WritesPlain

instance : (listed name c).WritesPlain :=
  inferInstanceAs (field ..).WritesPlain

end Fields

section Compounds

variable {l : Layout α} [l.WritesPlain]

instance {m : Layout β} [m.WritesPlain] : (l.and m).WritesPlain where
  sublist p := by
    simpa [Layout.and] using (WritesPlain.sublist p.1).append (WritesPlain.sublist p.2)
  plain p x hx := by
    rcases List.mem_append.mp hx with h | h
    · exact WritesPlain.plain p.1 x h
    · exact WritesPlain.plain p.2 x h

instance {of : α → β} {back : β → α} : (l.imap of back).WritesPlain where
  sublist b := WritesPlain.sublist (l := l) (back b)
  plain b := WritesPlain.plain (l := l) (back b)

end Compounds

/-- A record is plain if its fields have distinct names. -/
theorem codec_writesPlain {l : Layout α} (h : l.WritesPlain) (hd : l.names.Nodup) :
    l.codec.WritesPlain where
  plain a := .object ((h.sublist a).nodup hd) (h.plain a)

/-- A record beside a member of another name is plain. -/
theorem plain_beside {l : Layout α} (h : l.WritesPlain) {name : String} {v : Json}
    (hd : (name :: l.names).Nodup) (hv : v.Plain) (a : α) :
    (Json.object ((name, v) :: l.write a)).Plain := by
  refine .object (((h.sublist a).cons_cons name).nodup hd) fun m hm => ?_
  rcases List.mem_cons.mp hm with rfl | hm
  · exact hv
  · exact h.plain a m hm

end Layout

end GeoAssets
