import GeoAssets.Location
import GeoAssets.Services

/-!
# Teardown

What has to be removed outside the catalog when an asset or a version is deleted. An asset that the
catalog does not manage leaves everything where it is.
-/

namespace GeoAssets

/-! ## Actions -/

/-- One thing to remove. -/
inductive TeardownAction where
  | dropTable (dataset version : String)
  | deleteObject (bucket key : String)
  /-- Deletes the objects whose keys have a beginning. -/
  | deleteUnder (bucket start : String)
  /-- Makes a distribution forget paths. -/
  | invalidate (distribution : String) (paths : List String)
  deriving DecidableEq, Repr

namespace TeardownAction

/-- The name of an action in counters. -/
def name : TeardownAction → String
  | .dropTable .. => "drop_table"
  | .deleteObject .. => "delete_object"
  | .deleteUnder .. => "delete_prefix"
  | .invalidate .. => "invalidate"

/-- Takes an action. -/
def run (s : Services) : TeardownAction → Except Error Services
  | .dropTable dataset version => do
    let database ← s.database.dropTable dataset version
    pure { s with database }
  | .deleteObject bucket key => do
    let objects ← s.objects.delete bucket key
    pure { s with objects }
  | .deleteUnder bucket start => do
    let (_, objects) ← s.objects.deleteUnder bucket start
    pure { s with objects }
  | .invalidate id paths => do
    let distribution ← s.distribution.invalidate id paths
    pure { s with distribution }

end TeardownAction

/-! ## What to remove -/

namespace Teardown

/-- The request to forget one path. -/
def invalidatePath (settings : Settings) (path : String) : TeardownAction :=
  .invalidate settings.cdnDistribution [path]

/-- What to remove with an asset. -/
def ofAsset (settings : Settings) (a : Asset) : Except Error (List TeardownAction) :=
  if !a.isManaged then .ok []
  else
    let implementation := fun (fallback : String) =>
      (a.options.bind (·.implementation?)).getD fallback
    match a.type with
    | .databaseTable | .geoDatabaseTable => .ok [.dropTable a.key.dataset a.key.version]
    | .shapefile | .geopackage | .ndjson | .csv | .tsv => do
      let (bucket, key) ←
        orElseFail (.invalidOptions ("asset URI " ++ a.uri ++ " is not an object URI"))
          (Location.bucketAndKey? a.uri)
      pure [.deleteObject bucket key]
    | .dynamicVectorTileCache =>
      .ok [invalidatePath settings (Location.tileCachePath a.key (implementation "dynamic"))]
    | .staticVectorTileCache | .rasterTileCache =>
      .ok [.deleteUnder settings.tileCacheBucket
          (Location.tileCachePrefix a.key (implementation "default")),
        invalidatePath settings (Location.tileCachePath a.key (implementation "default"))]
    | .rasterTileSet =>
      match a.options with
      | some (.rasterSource grid) | some (.rasterTileSet grid) =>
        .ok [.deleteUnder settings.dataLakeBucket (Location.rasterPrefix a.key grid)]
      | _ => .error (.invalidOptions ("raster tile set " ++ a.id.text ++ " has no grid options"))
    | .grid1x1 => .error (.notImplemented ("no teardown registered for " ++ a.type.name))

/-- What to remove with a version. -/
def ofVersion (settings : Settings) (key : VersionKey) : List TeardownAction :=
  [.dropTable key.dataset key.version,
    .deleteUnder settings.dataLakeBucket (Location.versionPrefix key),
    .deleteUnder settings.tileCacheBucket (Location.versionPrefix key),
    invalidatePath settings (Location.versionPath key)]

end Teardown

end GeoAssets
