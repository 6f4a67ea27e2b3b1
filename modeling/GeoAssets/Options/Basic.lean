import GeoAssets.Catalog.AssetType
import GeoAssets.Options.Source
import GeoAssets.Options.Tiles

/-!
# Creation options

What it takes to create an asset. Options reach the catalog without their kind, under a kind of
source or a type of asset (`forSource`, `forAssetType`), and are then checked; inside the catalog
they carry their kind with them (`codec`). Names are read leniently beside a kind and strictly
without one.
-/

namespace GeoAssets

/-- What it takes to create an asset. -/
inductive CreationOptions where
  /-- Vector files become a table with geometries. -/
  | vectorSource (source : VectorSource)
  /-- Delimited text becomes a table, with geometries if it has coordinates. -/
  | tableSource (source : TableSource)
  /-- Raster files become a raster tile set. -/
  | rasterSource (source : RasterGrid)
  | dynamicTiles (tiles : DynamicTiles)
  | staticTiles (tiles : StaticTiles)
  | vectorFile (file : VectorFile)
  /-- A raster tile set that is derived from another raster. -/
  | rasterTileSet (grid : RasterGrid)
  | rasterTiles (tiles : RasterTiles)
  deriving DecidableEq, Repr

namespace CreationOptions

/-! ## Properties -/

/-- The name of the kind of options. -/
def kind : CreationOptions → String
  | .vectorSource _ => "vector_source"
  | .tableSource _ => "table_source"
  | .rasterSource _ => "raster_source"
  | .dynamicTiles _ => "dynamic_vector_tile_cache"
  | .staticTiles _ => "static_vector_tile_cache"
  | .vectorFile _ => "static_vector_file"
  | .rasterTileSet _ => "raster_tile_set"
  | .rasterTiles _ => "raster_tile_cache"

/-- The type of the default asset that is made of a source. -/
def defaultAssetType? : CreationOptions → Option AssetType
  | .vectorSource _ => some .geoDatabaseTable
  | .tableSource s => some (if s.hasCoordinates then .geoDatabaseTable else .databaseTable)
  | .rasterSource _ => some .rasterTileSet
  | _ => none

/-- Decides whether an asset of a type can have these options. -/
def fits (options : CreationOptions) (type : AssetType) : Bool :=
  match options with
  | .vectorSource _ | .tableSource _ => type.isDatabase
  | .rasterSource _ | .rasterTileSet _ => type == .rasterTileSet
  | .dynamicTiles _ => type == .dynamicVectorTileCache
  | .staticTiles _ => type == .staticVectorTileCache
  | .vectorFile _ => type == .shapefile || type == .geopackage
  | .rasterTiles _ => type == .rasterTileCache

/-- Whether a saved table is to get a dynamic tile cache. -/
def wantsTileCache : CreationOptions → Bool
  | .vectorSource s => s.wantsTileCache
  | .tableSource s => s.wantsTileCache
  | _ => false

/-- The name under which tiles are served or kept. -/
def implementation? : CreationOptions → Option String
  | .dynamicTiles t => some t.implementation
  | .staticTiles t => some t.implementation
  | .rasterTiles t => some t.implementation
  | _ => none

/-- The time limit of an attempt in seconds. -/
def timeout? : CreationOptions → Option UInt64
  | .vectorSource s => s.timeout
  | .tableSource s => s.timeout
  | _ => none

/-- The indices of a table. -/
def indices : CreationOptions → List IndexSpec
  | .vectorSource s => s.indices
  | .tableSource s => s.indices
  | _ => []

/-- The first thing that is wrong with the options, if anything is. -/
def validate : CreationOptions → Except Error Unit
  | .vectorSource s => s.validate
  | .tableSource s => s.validate
  | .rasterSource g | .rasterTileSet g => g.validate
  | .dynamicTiles t => validateZoom t.minZoom t.maxZoom
  | .staticTiles t => validateZoom t.minZoom t.maxZoom
  | .rasterTiles t => validateZoom t.minZoom t.maxZoom
  | .vectorFile _ => .ok ()

/-- The type of a default asset can have the options that it was derived from. -/
theorem fits_of_defaultAssetType? {options : CreationOptions} {type : AssetType}
    (h : options.defaultAssetType? = some type) : options.fits type = true := by
  cases options <;> simp only [defaultAssetType?, reduceCtorEq, Option.some.injEq] at h
  · subst h; rfl
  · subst h; simp only [fits]; split <;> rfl
  · subst h; rfl

/-! ## Options with their kind -/

/-- The members that hold the options themselves. -/
def writeBody : CreationOptions → List (String × Json)
  | .vectorSource s => (VectorSource.layout .lenient).write s
  | .tableSource s => (TableSource.layout .lenient).write s
  | .rasterSource g => RasterGrid.layout.write g
  | .dynamicTiles t => DynamicTiles.layout.write t
  | .staticTiles t => (StaticTiles.layout .lenient).write t
  | .vectorFile f => VectorFile.layout.write f
  | .rasterTileSet g => RasterGrid.layout.write g
  | .rasterTiles t => RasterTiles.layout.write t

/-- Reads options beside their kind from an object or an array of their fields. -/
def readBody (kind : String) (body : Json) : Option CreationOptions :=
  if kind = "vector_source" then ((VectorSource.layout .lenient).read body).map vectorSource
  else if kind = "table_source" then ((TableSource.layout .lenient).read body).map tableSource
  else if kind = "raster_source" then (RasterGrid.layout.read body).map rasterSource
  else if kind = "dynamic_vector_tile_cache" then (DynamicTiles.layout.read body).map dynamicTiles
  else if kind = "static_vector_tile_cache" then
    ((StaticTiles.layout .lenient).read body).map staticTiles
  else if kind = "static_vector_file" then (VectorFile.layout.read body).map vectorFile
  else if kind = "raster_tile_set" then (RasterGrid.layout.read body).map rasterTileSet
  else if kind = "raster_tile_cache" then (RasterTiles.layout.read body).map rasterTiles
  else none

/-- Options are written with their kind beside their fields, and read from such an object or from an
array of the kind and the fields. -/
def codec : Codec CreationOptions where
  encode options := .object (("kind", .string options.kind) :: options.writeBody)
  decode
    | .object members =>
      match members.lookup "kind" with
      | some (.string kind) => readBody kind (.object members)
      | _ => none
    | .array (.string kind :: fields) => readBody kind (.array fields)
    | _ => none

/-- A layout that has no field called `kind` reads beside one. -/
theorem read_beside_kind {α : Type} {l : Layout α} (hl : l.Reads) (hk : "kind" ∉ l.names)
    (v : Json) (a : α) : l.read (.object (("kind", v) :: l.write a)) = some a :=
  hl.readNamed_eq a _ fun n hn => by
    have hb : (n == "kind") = false := by
      simpa using fun e : n = "kind" => hk (e ▸ hn)
    simp [List.lookup_cons, hb]

theorem codec_roundTrips : codec.RoundTrips := fun options => by
  show readBody options.kind (.object (("kind", .string options.kind) :: options.writeBody)) = _
  cases options with
  | vectorSource s =>
    simp [readBody, kind, writeBody,
      read_beside_kind (VectorSource.layout_reads .lenient) (by decide)]
  | tableSource s =>
    simp [readBody, kind, writeBody,
      read_beside_kind (TableSource.layout_reads .lenient) (by decide)]
  | rasterSource g =>
    simp [readBody, kind, writeBody, read_beside_kind RasterGrid.layout_reads (by decide)]
  | dynamicTiles t =>
    simp [readBody, kind, writeBody, read_beside_kind DynamicTiles.layout_reads (by decide)]
  | staticTiles t =>
    simp [readBody, kind, writeBody,
      read_beside_kind (StaticTiles.layout_reads .lenient) (by decide)]
  | vectorFile f =>
    simp [readBody, kind, writeBody, read_beside_kind VectorFile.layout_reads (by decide)]
  | rasterTileSet g =>
    simp [readBody, kind, writeBody, read_beside_kind RasterGrid.layout_reads (by decide)]
  | rasterTiles t =>
    simp [readBody, kind, writeBody, read_beside_kind RasterTiles.layout_reads (by decide)]

theorem codec_neverNull : codec.NeverNull := fun _ => nofun

/-! ## Options without their kind -/

/-- Options that have been read, once they are checked. -/
def checked (read : Option CreationOptions) : Except Error CreationOptions := do
  let options ← orElseFail .malformedOptions read
  options.validate
  pure options

/-- Reads and checks the options of a source. -/
def forSource (sourceType : String) (body : Json) : Except Error CreationOptions := do
  match ← SourceType.ofName sourceType with
  | .vector => checked (((VectorSource.layout .strict).read body).map vectorSource)
  | .table => checked (((TableSource.layout .strict).read body).map tableSource)
  | .raster => checked ((RasterGrid.layout.read body).map rasterSource)

/-- Reads and checks the options of a derived asset. -/
def forAssetType (type : AssetType) (body : Json) : Except Error CreationOptions :=
  match type with
  | .dynamicVectorTileCache => checked ((DynamicTiles.layout.read body).map dynamicTiles)
  | .staticVectorTileCache => checked (((StaticTiles.layout .strict).read body).map staticTiles)
  | .shapefile | .geopackage => checked ((VectorFile.layout.read body).map vectorFile)
  | .rasterTileSet => checked ((RasterGrid.layout.read body).map rasterTileSet)
  | .rasterTileCache => checked ((RasterTiles.layout.read body).map rasterTiles)
  | other => .error (.notImplemented ("no creation options for asset type " ++ other.name))

end CreationOptions

end GeoAssets
