import GeoAssets.Lifecycle.Outcome
import GeoAssets.Lifecycle.World
import GeoAssets.Location

/-!
# Registering tile caches

A table that was created with the wish for a dynamic tile cache gets one as soon as it is saved. The
cache takes the fields of the table and the whole range of zoom levels.
-/

namespace GeoAssets.TileCache

/-- The saved table of a version from which tiles are rendered. -/
def tableOf? (store : Store) (key : VersionKey) : Option Asset :=
  (store.assetsOf key).find? fun a => a.type.isDatabase && a.status == .saved

/-- The options of a tile cache that is registered for a table. -/
def options : DynamicTiles := {}

/-- The metadata of the tile cache of a table. -/
def metadata (table : Asset) : AssetMetadata where
  fields := table.metadata.fields
  minZoom := some options.minZoom
  maxZoom := some options.maxZoom

/-- The tile cache of a table. -/
def ofTable (settings : Settings) (time : Timestamp) (id : AssetId) (table : Asset) :
    Except Error Asset := do
  let uri ←
    Location.ofAsset settings table.key .dynamicVectorTileCache (.dynamicTiles options)
  let cache := Asset.create id table.key .dynamicVectorTileCache uri (.dynamicTiles options) time
  pure { cache with metadata := metadata table }

/-- Files the tile cache of a table. -/
def file (table : Asset) : Flow Asset := do
  let id ← Flow.drawAssetId
  let settings ← Flow.read (·.settings)
  let now ← Flow.read (·.now)
  let cache ← Flow.check (ofTable settings now id table)
  Flow.updateStore (·.createAsset cache)
  pure cache

/-- What is added to the log of a version whose tile cache could not be filed. -/
def failedEntry (time : Timestamp) (e : Error) : LogEntry :=
  (LogEntry.note time .failed "Failed to create Dynamic Vector Tile Cache Asset").withDetail
    e.message

end GeoAssets.TileCache
