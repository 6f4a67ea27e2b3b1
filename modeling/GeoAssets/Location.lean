import GeoAssets.Settings.Basic
import GeoAssets.Text.Split

/-!
# Locations

Where things are: the keys of objects in buckets, the places of assets, and the paths of the
distribution that serves tiles. Everything that a version owns lies under the prefix of the version,
in every bucket and in the distribution.
-/

namespace GeoAssets.Location

/-! ## Keys -/

/-- What begins the keys of everything that a version owns. -/
def versionPrefix (key : VersionKey) : String :=
  key.dataset ++ "/" ++ key.version ++ "/"

/-- What begins the keys of a tile cache. -/
def tileCachePrefix (key : VersionKey) (implementation : String) : String :=
  versionPrefix key ++ implementation ++ "/"

/-- What begins the keys of a raster tile set. -/
def rasterPrefix (key : VersionKey) (grid : RasterGrid) : String :=
  versionPrefix key ++ "raster/" ++ grid.srid ++ "/" ++ grid.grid ++ "/" ++ grid.pixelMeaning ++ "/"

/-! ## Places of assets -/

/-- The place of a version's table. -/
def features (key : VersionKey) : String :=
  "/" ++ versionPrefix key ++ "features"

/-- The place of the files of a raster tile set, with a slot for the tile. -/
def rasterTileSet (bucket : String) (key : VersionKey) (grid : RasterGrid) : String :=
  "s3://" ++ bucket ++ "/" ++ rasterPrefix key grid ++ "geotiff/\x7btile_id\x7d.tif"

/-- The place of the tiles of a cache, with slots for the tile. -/
def tileCache (baseUrl : String) (key : VersionKey) (implementation extension : String) : String :=
  baseUrl ++ "/" ++ tileCachePrefix key implementation ++ "\x7bz\x7d/\x7bx\x7d/\x7by\x7d."
    ++ extension

/-- The place of an exported file. -/
def vectorFile (bucket : String) (key : VersionKey) (extension : String) : String :=
  "s3://" ++ bucket ++ "/" ++ versionPrefix key ++ "vector/epsg-4326/" ++ key.dataset ++ "_"
    ++ key.version ++ "." ++ extension

/-- The bucket and the key of an object's place. -/
def bucketAndKey? (place : String) : Option (String × String) := do
  let rest ← Text.afterStart? "s3://".toList place.toList
  let (bucket, key) ← Text.cutAt? '/' rest
  if bucket.isEmpty || key.isEmpty then none
  else some (String.ofList bucket, String.ofList key)

/-! ## Paths of the distribution -/

/-- The path of everything that a version serves. -/
def versionPath (key : VersionKey) : String :=
  "/" ++ versionPrefix key ++ "*"

/-- The path of everything that a tile cache serves. -/
def tileCachePath (key : VersionKey) (implementation : String) : String :=
  "/" ++ tileCachePrefix key implementation ++ "*"

/-- The paths that change when a version becomes the latest. -/
def latestPaths (key : VersionKey) : List String :=
  ["/_latest", "/" ++ versionPrefix key ++ "latest/*"]

/-! ## Managed assets -/

/-- The error that options do not belong to a type of asset. -/
def misfit (options : CreationOptions) (type : AssetType) : Error :=
  .invalidOptions (options.kind ++ " options do not apply to " ++ type.name)

/-- The place of an asset that the catalog manages. -/
def ofAsset (settings : Settings) (key : VersionKey) (type : AssetType)
    (options : CreationOptions) : Except Error String :=
  if !options.fits type then .error (misfit options type)
  else
    match type, options with
    | .databaseTable, _ | .geoDatabaseTable, _ => .ok (features key)
    | .rasterTileSet, .rasterSource grid | .rasterTileSet, .rasterTileSet grid =>
      .ok (rasterTileSet settings.dataLakeBucket key grid)
    | .dynamicVectorTileCache, _ | .staticVectorTileCache, _ =>
      .ok (tileCache settings.tileCacheUrl key (options.implementation?.getD "default") "pbf")
    | .rasterTileCache, _ =>
      .ok (tileCache settings.tileCacheUrl key (options.implementation?.getD "default") "png")
    | .shapefile, _ => .ok (vectorFile settings.dataLakeBucket key "shp.zip")
    | .geopackage, _ => .ok (vectorFile settings.dataLakeBucket key "gpkg")
    | other, _ => .error (.notImplemented ("no managed URI layout for " ++ other.name))

end GeoAssets.Location
