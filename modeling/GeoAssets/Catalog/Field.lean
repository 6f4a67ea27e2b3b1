import GeoAssets.Json.Layout

/-!
# Columns and fields

A table has columns, as the database reports them. What the catalog shows of a column is a field:
the columns that the import jobs maintain are neither shown nor offered as filters.
-/

namespace GeoAssets

/-! ## Columns -/

/-- A column of a table. -/
structure Column where
  name : String
  /-- The name of the column's type in the database. -/
  dataType : String
  deriving DecidableEq, Repr

namespace Column

/-- The fields of a column. -/
def layout : Layout Column :=
  ((Layout.required "name" .string).and (Layout.required "data_type" .string)).imap
    (fun (name, dataType) => ⟨name, dataType⟩) fun c => (c.name, c.dataType)

/-- Columns are written as records. -/
def codec : Codec Column :=
  layout.codec

theorem layout_reads : layout.Reads :=
  Layout.imap_reads
    (Layout.and_reads (Layout.required_reads Codec.string_roundTrips)
      (Layout.required_reads Codec.string_roundTrips) (by decide))
    fun _ => rfl

/-- The names of the columns that import jobs maintain. -/
def systemNames : List String :=
  ["geom", "geom_wm", "gfw_geojson", "gfw_bbox", "created_on", "updated_on"]

/-- Decides whether a column is maintained by import jobs. -/
def isSystem (c : Column) : Bool :=
  systemNames.contains c.name

end Column

/-! ## Fields -/

/-- What the catalog shows of a column. -/
structure Field where
  name : String
  /-- The name that people see. -/
  label : String
  dataType : String
  /-- Shown where a feature is described. -/
  isFeatureInfo : Bool
  /-- Offered as a filter. -/
  isFilter : Bool
  deriving DecidableEq, Repr

namespace Field

/-- The fields of a field. -/
def layout : Layout Field :=
  ((Layout.required "name" .string).and <|
    (Layout.required "alias" .string).and <|
    (Layout.required "data_type" .string).and <|
    (Layout.required "is_feature_info" .bool).and <|
    Layout.required "is_filter" .bool).imap
    (fun (name, label, dataType, info, filter) => ⟨name, label, dataType, info, filter⟩)
    fun f => (f.name, f.label, f.dataType, f.isFeatureInfo, f.isFilter)

/-- Fields are written as records. -/
def codec : Codec Field :=
  layout.codec

theorem layout_reads : layout.Reads := by
  refine Layout.imap_reads ?_ fun _ => rfl
  refine Layout.and_reads (Layout.required_reads Codec.string_roundTrips) ?_ (by decide)
  refine Layout.and_reads (Layout.required_reads Codec.string_roundTrips) ?_ (by decide)
  refine Layout.and_reads (Layout.required_reads Codec.string_roundTrips) ?_ (by decide)
  refine Layout.and_reads (Layout.required_reads Codec.bool_roundTrips) ?_ (by decide)
  exact Layout.required_reads Codec.bool_roundTrips

/-- The field of a column. -/
def ofColumn (c : Column) : Field where
  name := c.name
  label := c.name
  dataType := c.dataType
  isFeatureInfo := !c.isSystem
  isFilter := !c.isSystem

end Field

end GeoAssets
