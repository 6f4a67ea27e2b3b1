import GeoAssets.Error
import GeoAssets.Json.Layout

/-!
# Indices

The indices that are built on a table once it is loaded.
-/

namespace GeoAssets

/-- How an index is built. -/
inductive IndexMethod where
  /-- For geometries. -/
  | gist
  | btree
  | hash
  deriving DecidableEq, Repr

namespace IndexMethod

/-- All members of the type. -/
def all : List IndexMethod :=
  [.gist, .btree, .hash]

/-- The name of a method. -/
def name : IndexMethod → String
  | .gist => "gist"
  | .btree => "btree"
  | .hash => "hash"

/-- Methods are written by name. -/
def codec (rule : Codec.NameRule) : Codec IndexMethod :=
  .namedBy rule all name

theorem codec_roundTrips {rule : Codec.NameRule} : (codec rule).RoundTrips :=
  Codec.namedBy_roundTrips fun m => by cases m <;> decide

end IndexMethod

/-- An index on some columns. -/
structure IndexSpec where
  method : IndexMethod
  /-- The columns, in order. -/
  columns : List String
  deriving DecidableEq, Repr

namespace IndexSpec

/-- The fields of an index. -/
def layout (rule : Codec.NameRule) : Layout IndexSpec :=
  ((Layout.required "index_type" (IndexMethod.codec rule)).and
    (Layout.required "column_names" Codec.string.list)).imap
    (fun (method, columns) => ⟨method, columns⟩) fun i => (i.method, i.columns)

/-- Indices are written as records. -/
def codec (rule : Codec.NameRule) : Codec IndexSpec :=
  (layout rule).codec

theorem layout_reads (rule : Codec.NameRule) : (layout rule).Reads :=
  Layout.imap_reads
    (Layout.and_reads (Layout.required_reads IndexMethod.codec_roundTrips)
      (Layout.required_reads (Codec.list_roundTrips Codec.string_roundTrips)) (by simp))
    fun _ => rfl

/-- The name by which jobs call an index: its columns and then its method. -/
def slug (i : IndexSpec) : String :=
  "_".intercalate i.columns ++ "_" ++ i.method.name

/-- An index has columns, and every column has a name. -/
def validate (i : IndexSpec) : Except Error Unit :=
  require (!i.columns.isEmpty && !i.columns.contains "")
    (.invalidOptions "index column names must not be empty")

/-- Every index of a list is valid; the first that is not is reported. -/
def validateAll : List IndexSpec → Except Error Unit
  | [] => .ok ()
  | i :: rest => do
    i.validate
    validateAll rest

/-- The indices of a vector source that asks for none in particular. -/
def ofVectorSource : List IndexSpec :=
  [⟨.gist, ["geom"]⟩, ⟨.gist, ["geom_wm"]⟩, ⟨.hash, ["gfw_geostore_id"]⟩]

end IndexSpec

end GeoAssets
