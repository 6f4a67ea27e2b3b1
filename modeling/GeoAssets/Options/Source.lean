import GeoAssets.Catalog.Field
import GeoAssets.Options.FileName
import GeoAssets.Options.Index
import GeoAssets.Options.Partition

/-!
# Sources

The options of the three kinds of sources that become the default asset of a version: vector files,
delimited text and raster files.
-/

namespace GeoAssets

/-! ## Kinds of sources -/

/-- What a version is made of. -/
inductive SourceType where
  | vector
  | table
  | raster
  deriving DecidableEq, Repr

namespace SourceType

/-- All members of the type. -/
def all : List SourceType :=
  [.vector, .table, .raster]

/-- The name of a kind of source. -/
def name : SourceType → String
  | .vector => "vector"
  | .table => "table"
  | .raster => "raster"

/-- Reads the name of a kind of source. -/
def ofName (s : String) : Except Error SourceType :=
  orElseFail (.unsupportedSource s) (all.find? (name · == s))

/-- Kinds of sources are written by name. -/
def codec : Codec SourceType :=
  .named all name

end SourceType

/-- The program that reads a vector file. -/
inductive VectorDriver where
  | csv
  | esriJson
  | fileGdb
  | geoJson
  | geoJsonSeq
  | gpkg
  | shapefile
  deriving DecidableEq, Repr

namespace VectorDriver

/-- All members of the type. -/
def all : List VectorDriver :=
  [.csv, .esriJson, .fileGdb, .geoJson, .geoJsonSeq, .gpkg, .shapefile]

/-- The name of a driver. -/
def name : VectorDriver → String
  | .csv => "CSV"
  | .esriJson => "ESRIJSON"
  | .fileGdb => "FileGDB"
  | .geoJson => "GeoJSON"
  | .geoJsonSeq => "GeoJSONSeq"
  | .gpkg => "GPKG"
  | .shapefile => "ESRI Shapefile"

/-- Drivers are written by name. -/
def codec (rule : Codec.NameRule) : Codec VectorDriver :=
  .namedBy rule all name

theorem codec_roundTrips {rule : Codec.NameRule} : (codec rule).RoundTrips :=
  Codec.namedBy_roundTrips fun d => by cases d <;> decide

end VectorDriver

/-- What separates the columns of a text. -/
inductive Delimiter where
  | comma
  | tab
  | pipe
  | semicolon
  deriving DecidableEq, Repr

namespace Delimiter

/-- All members of the type. -/
def all : List Delimiter :=
  [.comma, .tab, .pipe, .semicolon]

/-- The delimiter itself. -/
def name : Delimiter → String
  | .comma => ","
  | .tab => "\t"
  | .pipe => "|"
  | .semicolon => ";"

/-- Delimiters are written as themselves. -/
def codec (rule : Codec.NameRule) : Codec Delimiter :=
  .namedBy rule all name

theorem codec_roundTrips {rule : Codec.NameRule} : (codec rule).RoundTrips :=
  Codec.namedBy_roundTrips fun d => by cases d <;> decide

end Delimiter

/-- The program that reads a table. -/
inductive TableDriver where
  | text
  deriving DecidableEq, Repr

namespace TableDriver

/-- All members of the type. -/
def all : List TableDriver :=
  [.text]

/-- The name of a driver. -/
def name : TableDriver → String
  | .text => "text"

/-- Drivers are written by name. -/
def codec (rule : Codec.NameRule) : Codec TableDriver :=
  .namedBy rule all name

theorem codec_roundTrips {rule : Codec.NameRule} : (codec rule).RoundTrips :=
  Codec.namedBy_roundTrips fun d => by cases d; decide

end TableDriver

/-! ## Requirements of several sources -/

/-- There are source files, and each has a location. -/
def validateFiles (files : List String) : Except Error Unit := do
  require (!files.isEmpty) (.invalidOptions "source_uri must not be empty")
  require (!files.contains "") (.invalidOptions "source_uri entries must not be empty")

/-- A limit on the time of an attempt is not zero. -/
def validateTimeout (timeout : Option UInt64) : Except Error Unit :=
  require (timeout != some 0) (.invalidOptions "timeout must be positive")

/-! ## Vector sources -/

/-- A source of vector files. -/
structure VectorSource where
  driver : VectorDriver
  /-- Where the files are. -/
  files : List String
  /-- The layers to load; one that is named after the first file if none are given. -/
  layers : Option (List String) := none
  indices : List IndexSpec := IndexSpec.ofVectorSource
  /-- The index by which the table is clustered. -/
  cluster : Option IndexSpec := none
  tableSchema : Option (List Column) := none
  /-- Whether geometries are taken over from the reference store. -/
  addToGeostore : Bool := true
  /-- Whether a dynamic tile cache is registered once the table is saved. -/
  wantsTileCache : Bool := true
  /-- The time limit of an attempt in seconds. -/
  timeout : Option UInt64 := none
  deriving DecidableEq, Repr

namespace VectorSource

/-- The fields of a vector source. -/
def layout (rule : Codec.NameRule) : Layout VectorSource :=
  ((Layout.required "source_driver" (VectorDriver.codec rule)).and <|
    (Layout.required "source_uri" Codec.string.list).and <|
    (Layout.optional "layers" Codec.string.list).and <|
    (Layout.defaulted "indices" (IndexSpec.codec rule).list IndexSpec.ofVectorSource).and <|
    (Layout.optional "cluster" (IndexSpec.codec rule)).and <|
    (Layout.optional "table_schema" Column.codec.list).and <|
    (Layout.defaulted "add_to_geostore" .bool true).and <|
    (Layout.defaulted "create_dynamic_vector_tile_cache" .bool true).and <|
    Layout.optional "timeout" .uint64).imap
    (fun (driver, files, layers, indices, cluster, schema, geostore, tiles, timeout) =>
      ⟨driver, files, layers, indices, cluster, schema, geostore, tiles, timeout⟩)
    fun s => (s.driver, s.files, s.layers, s.indices, s.cluster, s.tableSchema, s.addToGeostore,
      s.wantsTileCache, s.timeout)

theorem layout_reads (rule : Codec.NameRule) : (layout rule).Reads := by
  have strings := Codec.list_roundTrips Codec.string_roundTrips
  have index := Layout.codec_roundTrips (IndexSpec.layout_reads rule)
  have columns := Codec.list_roundTrips (Layout.codec_roundTrips Column.layout_reads)
  refine Layout.imap_reads ?_ fun _ => rfl
  refine Layout.and_reads (Layout.required_reads VectorDriver.codec_roundTrips) ?_ (by simp)
  refine Layout.and_reads (Layout.required_reads strings) ?_ (by simp)
  refine Layout.and_reads (Layout.optional_reads strings Codec.list_neverNull) ?_ (by simp)
  refine Layout.and_reads (Layout.defaulted_reads (Codec.list_roundTrips index)) ?_ (by simp)
  refine Layout.and_reads (Layout.optional_reads index Layout.codec_neverNull) ?_ (by simp)
  refine Layout.and_reads (Layout.optional_reads columns Codec.list_neverNull) ?_ (by simp)
  refine Layout.and_reads (Layout.defaulted_reads Codec.bool_roundTrips) ?_ (by simp)
  refine Layout.and_reads (Layout.defaulted_reads Codec.bool_roundTrips) ?_ (by simp)
  exact Layout.optional_reads Codec.uint64_roundTrips Codec.uint64_neverNull

/-- The layers to load. -/
def resolvedLayers (s : VectorSource) : List String :=
  match s.layers with
  | some layers => layers
  | none => (s.files.take 1).map FileName.layer

/-- Whether a source can be loaded. -/
def validate (s : VectorSource) : Except Error Unit := do
  validateFiles s.files
  require (s.layers.all fun layers => !layers.isEmpty && !layers.contains "")
    (.invalidOptions "layer names must not be empty")
  IndexSpec.validateAll s.indices
  IndexSpec.validateAll s.cluster.toList
  validateTimeout s.timeout

end VectorSource

/-! ## Table sources -/

/-- A source of delimited text. -/
structure TableSource where
  driver : TableDriver := .text
  /-- Where the files are. -/
  files : List String
  delimiter : Delimiter := .comma
  /-- Whether the first line of a file is a header. -/
  hasHeader : Bool := true
  /-- The column of latitudes; with one of longitudes the table has geometries. -/
  latitude : Option String := none
  longitude : Option String := none
  indices : List IndexSpec := []
  partitions : Option Partitions := none
  /-- Whether a dynamic tile cache is registered once the table is saved. -/
  wantsTileCache : Bool := false
  /-- The time limit of an attempt in seconds. -/
  timeout : Option UInt64 := none
  deriving DecidableEq, Repr

namespace TableSource

/-- The fields of a table source. -/
def layout (rule : Codec.NameRule) : Layout TableSource :=
  ((Layout.defaulted "source_driver" (TableDriver.codec rule) .text).and <|
    (Layout.required "source_uri" Codec.string.list).and <|
    (Layout.defaulted "delimiter" (Delimiter.codec rule) .comma).and <|
    (Layout.defaulted "has_header" .bool true).and <|
    (Layout.optional "latitude" .string).and <|
    (Layout.optional "longitude" .string).and <|
    (Layout.defaulted "indices" (IndexSpec.codec rule).list []).and <|
    (Layout.optional "partitions" (Partitions.codec rule)).and <|
    (Layout.defaulted "create_dynamic_vector_tile_cache" .bool false).and <|
    Layout.optional "timeout" .uint64).imap
    (fun (driver, files, delimiter, header, latitude, longitude, indices, partitions, tiles,
        timeout) =>
      ⟨driver, files, delimiter, header, latitude, longitude, indices, partitions, tiles, timeout⟩)
    fun s => (s.driver, s.files, s.delimiter, s.hasHeader, s.latitude, s.longitude, s.indices,
      s.partitions, s.wantsTileCache, s.timeout)

theorem layout_reads (rule : Codec.NameRule) : (layout rule).Reads := by
  have strings := Codec.list_roundTrips Codec.string_roundTrips
  have indices := Codec.list_roundTrips (Layout.codec_roundTrips (IndexSpec.layout_reads rule))
  have partitions := Layout.codec_roundTrips (Partitions.layout_reads rule)
  refine Layout.imap_reads ?_ fun _ => rfl
  refine Layout.and_reads (Layout.defaulted_reads TableDriver.codec_roundTrips) ?_ (by simp)
  refine Layout.and_reads (Layout.required_reads strings) ?_ (by simp)
  refine Layout.and_reads (Layout.defaulted_reads Delimiter.codec_roundTrips) ?_ (by simp)
  refine Layout.and_reads (Layout.defaulted_reads Codec.bool_roundTrips) ?_ (by simp)
  refine Layout.and_reads (Layout.optional_reads Codec.string_roundTrips Codec.string_neverNull)
    ?_ (by simp)
  refine Layout.and_reads (Layout.optional_reads Codec.string_roundTrips Codec.string_neverNull)
    ?_ (by simp)
  refine Layout.and_reads (Layout.defaulted_reads indices) ?_ (by simp)
  refine Layout.and_reads (Layout.optional_reads partitions Layout.codec_neverNull) ?_ (by simp)
  refine Layout.and_reads (Layout.defaulted_reads Codec.bool_roundTrips) ?_ (by simp)
  exact Layout.optional_reads Codec.uint64_roundTrips Codec.uint64_neverNull

/-- Whether the table has geometries. -/
def hasCoordinates (s : TableSource) : Bool :=
  s.latitude.isSome && s.longitude.isSome

/-- The suffixes of the table's partitions, in order; none for a table that is not split. -/
def partitionSuffixes (s : TableSource) : List String :=
  match s.partitions with
  | some p => p.scheme.suffixes
  | none => []

/-- Whether a source can be loaded. -/
def validate (s : TableSource) : Except Error Unit := do
  validateFiles s.files
  require (s.latitude.isSome == s.longitude.isSome)
    (.invalidOptions "latitude and longitude must be set together")
  IndexSpec.validateAll s.indices
  match s.partitions with
  | some p => p.validate
  | none => pure ()
  validateTimeout s.timeout

end TableSource

/-! ## Raster sources -/

/-- A source of raster files, or a raster tile set, on a grid. -/
structure RasterGrid where
  /-- Where the files are. -/
  files : List String := []
  /-- The spatial reference. -/
  srid : String
  /-- The tile grid. -/
  grid : String
  /-- What a pixel says. -/
  pixelMeaning : String
  deriving DecidableEq, Repr

namespace RasterGrid

/-- The fields of a raster source. -/
def layout : Layout RasterGrid :=
  ((Layout.defaulted "source_uri" Codec.string.list []).and <|
    (Layout.required "srid" .string).and <|
    (Layout.required "grid" .string).and <|
    Layout.required "pixel_meaning" .string).imap
    (fun (files, srid, grid, meaning) => ⟨files, srid, grid, meaning⟩)
    fun r => (r.files, r.srid, r.grid, r.pixelMeaning)

theorem layout_reads : layout.Reads := by
  refine Layout.imap_reads ?_ fun _ => rfl
  refine Layout.and_reads
    (Layout.defaulted_reads (Codec.list_roundTrips Codec.string_roundTrips)) ?_ (by decide)
  refine Layout.and_reads (Layout.required_reads Codec.string_roundTrips) ?_ (by decide)
  refine Layout.and_reads (Layout.required_reads Codec.string_roundTrips) ?_ (by decide)
  exact Layout.required_reads Codec.string_roundTrips

/-- The grid is described in full. -/
def validate (r : RasterGrid) : Except Error Unit :=
  require (r.srid != "" && r.grid != "" && r.pixelMeaning != "")
    (.invalidOptions "srid, grid and pixel_meaning are required")

end RasterGrid

end GeoAssets
