import GeoAssets.Json.Codec

/-!
# Types of assets

What an asset is: a table, a tile cache, a raster tile set, or one file.
-/

namespace GeoAssets

/-- The type of an asset. -/
inductive AssetType where
  /-- A plain table in the database. -/
  | databaseTable
  /-- A table with geometry columns in the database. -/
  | geoDatabaseTable
  /-- Vector tiles that are rendered from a table on request. -/
  | dynamicVectorTileCache
  /-- Vector tiles that were rendered beforehand. -/
  | staticVectorTileCache
  /-- Raster tiles that were rendered beforehand. -/
  | rasterTileCache
  /-- Raster files on a fixed grid. -/
  | rasterTileSet
  /-- A zipped shapefile. -/
  | shapefile
  | geopackage
  | ndjson
  | csv
  | tsv
  /-- A summary table on a grid of one degree. -/
  | grid1x1
  deriving DecidableEq, Repr

namespace AssetType

/-- All members of the type. -/
def all : List AssetType :=
  [.databaseTable, .geoDatabaseTable, .dynamicVectorTileCache, .staticVectorTileCache,
    .rasterTileCache, .rasterTileSet, .shapefile, .geopackage, .ndjson, .csv, .tsv, .grid1x1]

/-- The name that people see. -/
def name : AssetType → String
  | .databaseTable => "Database table"
  | .geoDatabaseTable => "Geo database table"
  | .dynamicVectorTileCache => "Dynamic vector tile cache"
  | .staticVectorTileCache => "Static vector tile cache"
  | .rasterTileCache => "Raster tile cache"
  | .rasterTileSet => "Raster tile set"
  | .shapefile => "ESRI Shapefile"
  | .geopackage => "Geopackage"
  | .ndjson => "ndjson"
  | .csv => "csv"
  | .tsv => "tsv"
  | .grid1x1 => "1x1 grid"

/-- Types are written by name. -/
def codec : Codec AssetType :=
  .named all name

/-! ## Families -/

/-- Tables in the database. -/
def isDatabase : AssetType → Bool
  | .databaseTable | .geoDatabaseTable => true
  | _ => false

/-- Caches of tiles. -/
def isTileCache : AssetType → Bool
  | .dynamicVectorTileCache | .staticVectorTileCache | .rasterTileCache => true
  | _ => false

/-- Assets that are one file. -/
def isSingleFile : AssetType → Bool
  | .shapefile | .geopackage | .ndjson | .csv | .tsv | .grid1x1 => true
  | _ => false

end AssetType

end GeoAssets
