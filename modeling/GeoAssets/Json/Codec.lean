import GeoAssets.Json.Value

/-!
# Codecs

How the values of a type are written to and read from JSON. Each type of the catalog has one codec;
the codecs of compound types are put together from those of their parts, and so are the proofs that
what was written is read back (`Codec.RoundTrips`).
-/

namespace GeoAssets

/-- How the values of a type are written to and read from JSON. -/
structure Codec (α : Type) where
  encode : α → Json
  decode : Json → Option α

namespace Codec

variable {α β : Type}

/-- Whatever was written is read back. -/
def RoundTrips (c : Codec α) : Prop :=
  ∀ a, c.decode (c.encode a) = some a

/-- No value is written as `null`. -/
def NeverNull (c : Codec α) : Prop :=
  ∀ a, c.encode a ≠ .null

/-! ## Texts, truth values and free-form values -/

/-- Texts. -/
def string : Codec String where
  encode := .string
  decode
    | .string s => some s
    | _ => none

/-- Truth values. -/
def bool : Codec Bool where
  encode := .bool
  decode
    | .bool b => some b
    | _ => none

/-- Any JSON value, as it is. -/
def free : Codec Json where
  encode := id
  decode := some

theorem string_roundTrips : string.RoundTrips := fun _ => rfl

theorem string_neverNull : string.NeverNull := fun _ => nofun

theorem bool_roundTrips : bool.RoundTrips := fun _ => rfl

/-! ## Integers -/

/-- The natural number that a value is, if it is one below a bound. -/
def below? (bound : Nat) : Json → Option Nat
  | .int n => if 0 ≤ n ∧ n < bound then some n.toNat else none
  | _ => none

theorem below?_int {bound n : Nat} (h : n < bound) : below? bound (.int n) = some n := by
  simp only [below?]
  rw [if_pos ⟨by omega, by omega⟩, Int.toNat_natCast]

/-- Unsigned integers of eight bits. -/
def uint8 : Codec UInt8 where
  encode n := .int n.toNat
  decode v := (below? UInt8.size v).map .ofNat

/-- Unsigned integers of 16 bits. -/
def uint16 : Codec UInt16 where
  encode n := .int n.toNat
  decode v := (below? UInt16.size v).map .ofNat

/-- Unsigned integers of 32 bits. -/
def uint32 : Codec UInt32 where
  encode n := .int n.toNat
  decode v := (below? UInt32.size v).map .ofNat

/-- Unsigned integers of 64 bits. -/
def uint64 : Codec UInt64 where
  encode n := .int n.toNat
  decode v := (below? UInt64.size v).map .ofNat

/-- Signed integers of 32 bits. -/
def int32 : Codec Int32 where
  encode n := .int n.toInt
  decode
    | .int n =>
      if Int32.minValue.toInt ≤ n ∧ n ≤ Int32.maxValue.toInt then some (.ofInt n) else none
    | _ => none

theorem uint8_roundTrips : uint8.RoundTrips := fun n => by
  simp [uint8, below?_int n.toNat_lt_size]

theorem uint16_roundTrips : uint16.RoundTrips := fun n => by
  simp [uint16, below?_int n.toNat_lt_size]

theorem uint32_roundTrips : uint32.RoundTrips := fun n => by
  simp [uint32, below?_int n.toNat_lt_size]

theorem uint64_roundTrips : uint64.RoundTrips := fun n => by
  simp [uint64, below?_int n.toNat_lt_size]

theorem int32_roundTrips : int32.RoundTrips := fun n => by
  simp only [int32]
  rw [if_pos ⟨n.minValue_le_toInt, n.toInt_le⟩, Int32.ofInt_toInt]

theorem uint8_neverNull : uint8.NeverNull := fun _ => nofun

theorem uint32_neverNull : uint32.NeverNull := fun _ => nofun

theorem uint64_neverNull : uint64.NeverNull := fun _ => nofun

theorem int32_neverNull : int32.NeverNull := fun _ => nofun

/-! ## Names of a finite type -/

/-- What may stand for a name besides its text. -/
inductive NameRule where
  /-- An object whose only member has the name and the value `null`. -/
  | strict
  /-- The member of the object may also be an empty object. A name that stands in an array before
  what it names may be given by its number. -/
  | lenient
  deriving DecidableEq, Repr

/-- Decides whether a value may stand in an object as the member that has the name. -/
def NameRule.allows (rule : NameRule) : Json → Bool
  | .null => true
  | .object [] => rule = .lenient
  | _ => false

/-- The name that a value stands for. -/
def nameText? (rule : NameRule) : Json → Option String
  | .string s => some s
  | .object [(s, v)] => if rule.allows v then some s else none
  | _ => none

/-- The name that a value stands for in an array before what it names. -/
def leadingName? (rule : NameRule) (names : List String) : Json → Option String
  | .string s => some s
  | .int n => if rule = .lenient ∧ 0 ≤ n then names[n.toNat]? else none
  | _ => none

/-- Values that are written by name. -/
def namedBy (rule : NameRule) (all : List α) (name : α → String) : Codec α where
  encode a := .string (name a)
  decode v := do
    let s ← nameText? rule v
    all.find? (name · == s)

/-- Values that are written by name and read strictly. -/
def named (all : List α) (name : α → String) : Codec α :=
  namedBy .strict all name

theorem namedBy_roundTrips {rule : NameRule} {all : List α} {name : α → String}
    (h : ∀ a, all.find? (name · == name a) = some a) :
    (namedBy rule all name).RoundTrips := fun a => by
  simp [namedBy, nameText?, h]

theorem named_roundTrips {all : List α} {name : α → String}
    (h : ∀ a, all.find? (name · == name a) = some a) : (named all name).RoundTrips :=
  namedBy_roundTrips h

theorem named_neverNull {all : List α} {name : α → String} : (named all name).NeverNull :=
  fun _ => nofun

/-! ## Lists and optional values -/

/-- Reads every item of a list; fails if one item cannot be read. -/
def decodeAll (decode : Json → Option α) : List Json → Option (List α)
  | [] => some []
  | v :: rest =>
    match decode v, decodeAll decode rest with
    | some a, some as => some (a :: as)
    | _, _ => none

theorem decodeAll_map {c : Codec α} (h : c.RoundTrips) (as : List α) :
    decodeAll c.decode (as.map c.encode) = some as := by
  induction as with
  | nil => rfl
  | cons a as ih => simp [decodeAll, h a, ih]

/-- Lists, as arrays. -/
def list (c : Codec α) : Codec (List α) where
  encode as := .array (as.map c.encode)
  decode
    | .array items => decodeAll c.decode items
    | _ => none

theorem list_roundTrips {c : Codec α} (h : c.RoundTrips) : c.list.RoundTrips :=
  decodeAll_map h

theorem list_neverNull {c : Codec α} : c.list.NeverNull := fun _ => nofun

/-- Optional values; `null` stands for a missing one. -/
def option (c : Codec α) : Codec (Option α) where
  encode
    | none => .null
    | some a => c.encode a
  decode
    | .null => some none
    | v => (c.decode v).map some

theorem option_roundTrips {c : Codec α} (h : c.RoundTrips) (hn : c.NeverNull) :
    c.option.RoundTrips := fun a => by
  cases a with
  | none => rfl
  | some a =>
    have ha := hn a
    simp only [option, h a, Option.map_some]

/-! ## Values with another face -/

/-- Reads and writes values through another type; reading may refuse a value. -/
def via (c : Codec α) (of : α → Option β) (back : β → α) : Codec β where
  encode b := c.encode (back b)
  decode v := (c.decode v).bind of

theorem via_roundTrips {c : Codec α} {of : α → Option β} {back : β → α} (h : c.RoundTrips)
    (hof : ∀ b, of (back b) = some b) : (c.via of back).RoundTrips := fun b => by
  simp [via, h (back b), hof]

end Codec

end GeoAssets
