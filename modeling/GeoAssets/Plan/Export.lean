import GeoAssets.Location
import GeoAssets.Plan.Brief

/-!
# Plans for exports

Tile caches and files are exported from the table of the version's default asset. An export has the
fields that the catalog shows of that table, or those among them that are asked for.
-/

namespace GeoAssets.Plan

/-! ## Fields -/

/-- Decides whether a field is asked for. -/
def isRequested (requested : Option (List String)) (f : Field) : Bool :=
  match requested with
  | some names => names.contains f.name
  | none => true

/-- The names of the fields that are exported. -/
def exportedFields (b : Brief) (requested : Option (List String)) : Except Error (List String) :=
  let fields := (b.fields.filter fun f => f.isFeatureInfo && isRequested requested f).map (·.name)
  if fields.isEmpty then
    .error (.invalidOptions
      ("default asset of " ++ b.asset.key.text ++ " exposes no exportable fields"))
  else .ok fields

/-- The arguments of an export. -/
def exportArgs (b : Brief) (extension : String) (driver : VectorDriver) (target : String)
    (fields : List String) : List String :=
  ["-f", b.fileName extension, "-F", driver.name, "-T", target, "-C", ",".intercalate fields]

/-! ## Tile caches -/

/-- The place of the file from which tiles are rendered. -/
def tileInput (b : Brief) : String :=
  Location.vectorFile b.settings.dataLakeBucket b.asset.key "ndjson"

/-- The jobs for tiles that are rendered beforehand. -/
def staticTileJobs (b : Brief) (t : StaticTiles) : Except Error (List Job) := do
  let fields ← exportedFields b t.fields
  let rows := b.job "export_ndjson" .gdalExport "export_vector_data.sh"
    (exportArgs b "ndjson" .geoJsonSeq (tileInput b) fields)
  let render := b.job "create_vector_tile_cache" .tileCache "create_vector_tile_cache.sh"
    ["-s", tileInput b, "-Z", toString t.minZoom.toNat, "-z", toString t.maxZoom.toNat, "-t",
      t.strategy.name, "-I", t.implementation]
  pure [rows, render.withParents [rows.name]]

/-! ## Files -/

/-- How a type of asset is written to a file: the driver, the extension, and whether it is zipped.
-/
def fileFormat? : AssetType → Option (VectorDriver × String × Bool)
  | .shapefile => some (.shapefile, "shp", true)
  | .geopackage => some (.gpkg, "gpkg", false)
  | _ => none

/-- The job for an exported file. -/
def fileJobs (b : Brief) (f : VectorFile) : Except Error (List Job) := do
  let (driver, extension, zipped) ←
    orElseFail (.notImplemented ("no export template for " ++ b.asset.type.name))
      (fileFormat? b.asset.type)
  let fields ← exportedFields b f.fields
  pure [b.job ("export_" ++ extension) .gdalExport "export_vector_data.sh"
    (exportArgs b extension driver b.asset.uri fields ++ ["-X", flag zipped])]

end GeoAssets.Plan
