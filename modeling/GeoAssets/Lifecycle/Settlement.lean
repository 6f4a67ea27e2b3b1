import GeoAssets.Lifecycle.Outcome
import GeoAssets.Lifecycle.World

/-!
# Settling assets

An outcome is committed in one step of the store. After that it is counted, and the tile service is
told about a new tile cache. Reading the columns of a table and telling the tile service may fail
without consequence for the commit.
-/

namespace GeoAssets

/-- An asset that has just reached its final status. -/
structure Settled where
  asset : Asset
  /-- A dynamic tile cache has to be registered for it. -/
  registersTileCache : Bool
  deriving DecidableEq, Repr

namespace World

/-- The fields that come with an outcome: those of the columns of the table, if they can be read. -/
def fieldsFor (w : World) (a : Asset) (o : Outcome) : Option (List Field) :=
  if o.attachesFields then
    match w.services.database.columns a.key.dataset a.key.version with
    | .ok columns => some (columns.map Field.ofColumn)
    | .error _ => none
  else none

/-- The entry of an asset whose tiles are not served yet. -/
def redeployFailedEntry (w : World) (e : Error) : LogEntry :=
  (LogEntry.note w.now .failed "Failed to redeploy tile cache service").withDetail e.message

/-- Tells the tile service to load its tile caches anew; a failure is noted in the log of the asset,
if there still is one. -/
def redeployTiles (w : World) (id : AssetId) : World :=
  match w.services.tiles.redeploy with
  | .ok tiles => { w with services := { w.services with tiles } }
  | .error e =>
    match w.store.appendAssetLog id (w.redeployFailedEntry e) with
    | .ok store => { w with store }
    | .error _ => w

/-- Counts an asset that was settled, and the version that followed it. -/
def measureSettled (w : World) (a : Asset) (v : Option Version) : World :=
  let w := w.measure (.assetSettled a.type a.status)
  match v with
  | some v => w.measure (.versionSettled v.status)
  | none => w

/-- Settles a pending asset. Gives the settled asset; nothing if the asset is not pending any more
or was deleted. -/
def settle (w : World) (a : Asset) (o : Outcome) : Option Settled × World :=
  match w.store.commit (o.transition a (w.fieldsFor a o)) with
  | (.applied a v, store) =>
    let w := ({ w with store } : World).measureSettled a v
    let w := if o.redeploysTiles then w.redeployTiles a.id else w
    (some ⟨a, o.registersTileCache⟩, w)
  | (_, store) => (none, { w with store })

/-- Settles an asset if its tasks decide so. -/
def settleByTasks (w : World) (id : AssetId) : Option Settled × World :=
  match w.store.assets.get? id with
  | none => (none, w)
  | some a =>
    match Decision.ofTasks w.now a (w.store.tasksOf id) with
    | .finish outcome => w.settle a outcome
    | .settled _ | .wait => (none, w)

end World

end GeoAssets
