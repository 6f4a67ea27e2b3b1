import GeoAssets.Catalog.Field
import GeoAssets.Directory
import GeoAssets.Error

/-!
# Services outside the catalog

Where the content of assets is: objects in buckets, a distribution that serves tiles, a database
with one table per version, and the service that renders dynamic tiles. Each service remembers what
it was asked to do, and may be out of order; then it refuses every request and changes nothing.
-/

namespace GeoAssets

/-! ## Objects -/

/-- Objects in buckets. -/
structure ObjectService where
  /-- The buckets and keys of the objects. -/
  objects : List (String × String) := []
  /-- The buckets and the keys, or beginnings of keys, that were deleted. -/
  deleted : List (String × String) := []
  isDown : Bool := false
  deriving DecidableEq, Repr

namespace ObjectService

/-- Decides whether an object exists. -/
def contains (o : ObjectService) (bucket key : String) : Bool :=
  o.objects.contains (bucket, key)

/-- Stores an object. -/
def put (o : ObjectService) (bucket key : String) : ObjectService :=
  if o.contains bucket key then o else { o with objects := o.objects ++ [(bucket, key)] }

/-- Fails if the service is out of order. -/
def requireUp (o : ObjectService) : Except Error Unit :=
  require (!o.isDown) (.collaborator "object store" "delete rejected")

/-- Deletes an object, which need not exist. -/
def delete (o : ObjectService) (bucket key : String) : Except Error ObjectService := do
  o.requireUp
  pure { o with
    objects := o.objects.filter (· != (bucket, key))
    deleted := o.deleted ++ [(bucket, key)] }

/-- Decides whether an object is in a bucket and its key has a beginning. -/
def isUnder (bucket start : String) (object : String × String) : Bool :=
  object.1 == bucket && start.toList.isPrefixOf object.2.toList

/-- Deletes the objects of a bucket whose keys have a beginning. Gives their number. -/
def deleteUnder (o : ObjectService) (bucket start : String) :
    Except Error (Nat × ObjectService) := do
  o.requireUp
  pure (o.objects.countP (isUnder bucket start), { o with
    objects := o.objects.filter (!isUnder bucket start ·)
    deleted := o.deleted ++ [(bucket, start)] })

end ObjectService

/-! ## The distribution -/

/-- The distribution that serves tiles. -/
structure Distribution where
  /-- The requests to forget paths: the distribution and the paths. -/
  invalidations : List (String × List String) := []
  isDown : Bool := false
  deriving DecidableEq, Repr

namespace Distribution

/-- Forgets what is under some paths. -/
def invalidate (d : Distribution) (id : String) (paths : List String) :
    Except Error Distribution := do
  require (!d.isDown) (.collaborator "cdn" "invalidation rejected")
  pure { d with invalidations := d.invalidations ++ [(id, paths)] }

/-- The paths of all requests. -/
def paths (d : Distribution) : List String :=
  d.invalidations.flatMap (·.2)

end Distribution

/-! ## The database -/

/-- The database, with a table for each version that is named by its dataset and version. -/
structure Database where
  /-- The columns of the tables. -/
  tables : Directory (String × String) (List Column) := {}
  /-- The tables that were dropped. -/
  dropped : List (String × String) := []
  isDown : Bool := false
  deriving Repr

namespace Database

/-- The error of a request to the database. -/
def failure (reason : String) : Error :=
  .collaborator "database" reason

/-- Creates or replaces a table. -/
def createTable (d : Database) (dataset version : String) (columns : List Column) : Database :=
  { d with tables := d.tables.insert (dataset, version) columns }

/-- Decides whether a table exists. -/
def hasTable (d : Database) (dataset version : String) : Bool :=
  d.tables.contains (dataset, version)

/-- The columns of a table. -/
def columns (d : Database) (dataset version : String) : Except Error (List Column) := do
  require (!d.isDown) (failure "introspection failed")
  orElseFail (failure ("table " ++ dataset ++ "." ++ version ++ " does not exist"))
    (d.tables.get? (dataset, version))

/-- Drops a table, which need not exist. -/
def dropTable (d : Database) (dataset version : String) : Except Error Database := do
  require (!d.isDown) (failure "drop failed")
  pure { d with
    tables := d.tables.erase (dataset, version)
    dropped := d.dropped ++ [(dataset, version)] }

end Database

/-! ## The tile service -/

/-- The service that renders dynamic tiles. -/
structure TileService where
  /-- How often it was told to load its tile caches anew. -/
  redeploys : Nat := 0
  isDown : Bool := false
  deriving DecidableEq, Repr

/-- Loads the tile caches anew. -/
def TileService.redeploy (t : TileService) : Except Error TileService := do
  require (!t.isDown) (.collaborator "tile cache service" "redeploy failed")
  pure { t with redeploys := t.redeploys + 1 }

/-! ## All services -/

/-- The services outside the catalog. -/
structure Services where
  objects : ObjectService := {}
  distribution : Distribution := {}
  database : Database := {}
  tiles : TileService := {}
  deriving Repr

namespace Services

/-- Puts the objects out of order, or in order again. -/
def setObjectsDown (s : Services) (isDown : Bool) : Services :=
  { s with objects := { s.objects with isDown } }

/-- Puts the distribution out of order, or in order again. -/
def setDistributionDown (s : Services) (isDown : Bool) : Services :=
  { s with distribution := { s.distribution with isDown } }

/-- Puts the database out of order, or in order again. -/
def setDatabaseDown (s : Services) (isDown : Bool) : Services :=
  { s with database := { s.database with isDown } }

/-- Puts the tile service out of order, or in order again. -/
def setTilesDown (s : Services) (isDown : Bool) : Services :=
  { s with tiles := { s.tiles with isDown } }

end Services

end GeoAssets
