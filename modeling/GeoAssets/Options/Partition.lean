import GeoAssets.Error
import GeoAssets.Json.Layout

/-!
# Partitions

A table may be split by the values of one column: by hash, by lists of values, or by ranges. Every
partition has a suffix that tells its table from the others.
-/

namespace GeoAssets

/-! ## Single partitions -/

/-- A partition for listed values. -/
structure ListPartition where
  suffix : String
  values : List String
  deriving DecidableEq, Repr

namespace ListPartition

/-- The fields of a list partition. -/
def layout : Layout ListPartition :=
  ((Layout.required "partition_suffix" .string).and
    (Layout.required "value_list" Codec.string.list)).imap
    (fun (suffix, values) => ⟨suffix, values⟩) fun p => (p.suffix, p.values)

theorem layout_reads : layout.Reads :=
  Layout.imap_reads
    (Layout.and_reads (Layout.required_reads Codec.string_roundTrips)
      (Layout.required_reads (Codec.list_roundTrips Codec.string_roundTrips)) (by decide))
    fun _ => rfl

end ListPartition

/-- A partition for the values from a first one up to, and without, a last one. -/
structure RangePartition where
  suffix : String
  first : String
  last : String
  deriving DecidableEq, Repr

namespace RangePartition

/-- The fields of a range partition. -/
def layout : Layout RangePartition :=
  ((Layout.required "partition_suffix" .string).and <|
    (Layout.required "start_value" .string).and <|
    Layout.required "end_value" .string).imap
    (fun (suffix, first, last) => ⟨suffix, first, last⟩) fun p => (p.suffix, p.first, p.last)

theorem layout_reads : layout.Reads :=
  Layout.imap_reads
    (Layout.and_reads (Layout.required_reads Codec.string_roundTrips)
      (Layout.and_reads (Layout.required_reads Codec.string_roundTrips)
        (Layout.required_reads Codec.string_roundTrips) (by decide)) (by decide))
    fun _ => rfl

end RangePartition

/-! ## Schemes -/

/-- How a table is split. -/
inductive PartitionScheme where
  /-- By hash into a number of partitions. -/
  | hash (count : UInt32)
  | list (parts : List ListPartition)
  | range (parts : List RangePartition)
  deriving DecidableEq, Repr

namespace PartitionScheme

/-- The name of a scheme. -/
def kind : PartitionScheme → String
  | .hash _ => "hash"
  | .list _ => "list"
  | .range _ => "range"

/-- The field of a hash scheme. -/
def hashLayout : Layout UInt32 :=
  Layout.required "partition_count" .uint32

theorem hashLayout_reads : hashLayout.Reads :=
  Layout.required_reads Codec.uint32_roundTrips

/-- The part of the record that depends on the scheme. -/
def encodeBody : PartitionScheme → Json
  | .hash count => hashLayout.codec.encode count
  | .list parts => ListPartition.layout.codec.list.encode parts
  | .range parts => RangePartition.layout.codec.list.encode parts

/-- Reads the part of the record that depends on the scheme. -/
def decodeBody (kind : String) (body : Json) : Option PartitionScheme :=
  if kind = "hash" then (hashLayout.codec.decode body).map .hash
  else if kind = "list" then (ListPartition.layout.codec.list.decode body).map .list
  else if kind = "range" then (RangePartition.layout.codec.list.decode body).map .range
  else none

/-- The names of all schemes. -/
def kinds : List String :=
  ["hash", "list", "range"]

/-- A scheme is written as its name and its body, and read from an object or a pair of these. -/
def codec (rule : Codec.NameRule) : Codec PartitionScheme where
  encode s := .object [("partition_type", .string s.kind), ("partition_schema", s.encodeBody)]
  decode
    | .object members => do
      let kind ← (members.lookup "partition_type").bind (Codec.nameText? rule)
      let body ← members.lookup "partition_schema"
      decodeBody kind body
    | .array [kind, body] => do
      let kind ← Codec.leadingName? rule kinds kind
      decodeBody kind body
    | _ => none

theorem codec_roundTrips {rule : Codec.NameRule} : (codec rule).RoundTrips := fun s => by
  show decodeBody s.kind s.encodeBody = some s
  cases s with
  | hash count =>
    have h : hashLayout.codec.decode _ = some count :=
      Layout.codec_roundTrips hashLayout_reads count
    simp [decodeBody, kind, encodeBody, h]
  | list parts =>
    have h : ListPartition.layout.codec.list.decode _ = some parts :=
      Codec.list_roundTrips (Layout.codec_roundTrips ListPartition.layout_reads) parts
    simp [decodeBody, kind, encodeBody, h]
  | range parts =>
    have h : RangePartition.layout.codec.list.decode _ = some parts :=
      Codec.list_roundTrips (Layout.codec_roundTrips RangePartition.layout_reads) parts
    simp [decodeBody, kind, encodeBody, h]

/-- The suffixes of the partitions, in order. -/
def suffixes : PartitionScheme → List String
  | .hash count => (List.range count.toNat).map toString
  | .list parts => parts.map (·.suffix)
  | .range parts => parts.map (·.suffix)

end PartitionScheme

/-! ## Partitioned tables -/

/-- The column by which a table is split, and how. -/
structure Partitions where
  column : String
  scheme : PartitionScheme
  deriving DecidableEq, Repr

namespace Partitions

/-- The fields of a partitioning. -/
def layout (rule : Codec.NameRule) : Layout Partitions :=
  ((Layout.required "partition_column" .string).and
    (Layout.required "schema" (PartitionScheme.codec rule))).imap
    (fun (column, scheme) => ⟨column, scheme⟩) fun p => (p.column, p.scheme)

/-- Partitionings are written as records. -/
def codec (rule : Codec.NameRule) : Codec Partitions :=
  (layout rule).codec

theorem layout_reads (rule : Codec.NameRule) : (layout rule).Reads :=
  Layout.imap_reads
    (Layout.and_reads (Layout.required_reads Codec.string_roundTrips)
      (Layout.required_reads PartitionScheme.codec_roundTrips) (by simp))
    fun _ => rfl

/-- The first text of a list that is empty or stood in the list before. -/
def firstUnusable? : List String → List String → Option String
  | _, [] => none
  | seen, s :: rest =>
    if s = "" ∨ s ∈ seen then some s else firstUnusable? (s :: seen) rest

/-- There is a column and a partition, and the suffixes are distinct and not empty. -/
def validate (p : Partitions) : Except Error Unit := do
  require (p.column != "") (.invalidOptions "partition column must not be empty")
  require (!p.scheme.suffixes.isEmpty) (.invalidOptions "partitions must not be empty")
  match firstUnusable? [] p.scheme.suffixes with
  | none => .ok ()
  | some s =>
    .error (.invalidOptions ("partition suffix '" ++ s ++ "' is empty or duplicated"))

end Partitions

end GeoAssets
