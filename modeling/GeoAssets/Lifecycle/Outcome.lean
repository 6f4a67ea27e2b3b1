import GeoAssets.Catalog.Store.Assets

/-!
# How the work on an asset ends

What becomes of an asset follows from the asset and its tasks: a failed task fails it at once, and
it is saved when all its tasks are there and have succeeded. A dynamic tile cache takes no tasks; it
is saved if the table below it can serve tiles, and fails otherwise.
-/

namespace GeoAssets

/-! ## Outcomes -/

/-- The end of the work on an asset with what has to follow it. -/
structure Outcome where
  status : Status
  /-- What is added to the log of the asset. -/
  entry : LogEntry
  /-- The version takes the same status. -/
  settlesVersion : Bool
  /-- The columns of the table become the fields of the asset. -/
  attachesFields : Bool
  /-- The tile service has to load its tile caches anew. -/
  redeploysTiles : Bool
  /-- A dynamic tile cache has to be registered. -/
  registersTileCache : Bool
  deriving DecidableEq, Repr

namespace Outcome

/-- The outcome of success. -/
def saved (a : Asset) (entry : LogEntry) : Outcome where
  status := .saved
  entry := entry
  settlesVersion := a.isDefault
  attachesFields := a.isManagedTable
  redeploysTiles := a.type.isTileCache
  registersTileCache := a.isManagedTable && a.options.any (·.wantsTileCache)

/-- The outcome of failure. -/
def failed (a : Asset) (entry : LogEntry) : Outcome where
  status := .failed
  entry := entry
  settlesVersion := a.isDefault
  attachesFields := a.isManagedTable
  redeploysTiles := false
  registersTileCache := false

/-- The transition of an outcome, with the fields that were found. -/
def transition (o : Outcome) (a : Asset) (fields : Option (List Field)) : Transition where
  asset := a.id
  status := o.status
  entry := o.entry
  fields := fields
  version := if o.settlesVersion then some (o.status, o.entry) else none

/-! ## Outcomes of tasks -/

/-- The entry of an asset with a failed task. -/
def taskFailedEntry (time : Timestamp) (id : TaskId) : LogEntry :=
  (LogEntry.note time .failed "One or more tasks failed.").withDetail
    ("Check /task/" ++ id.text ++ " for more detail")

/-- The entry of an asset that was saved. -/
def savedEntry (time : Timestamp) (a : Asset) : LogEntry :=
  .note time .success ("Successfully created asset " ++ a.id.text ++ ".")

end Outcome

/-- What becomes of an asset. -/
inductive Decision where
  /-- Nothing; its status is final. -/
  | settled (status : Status)
  /-- Nothing yet; tasks are missing or have not ended. -/
  | wait
  | finish (outcome : Outcome)
  deriving DecidableEq, Repr

namespace Decision

/-- Decides whether all the tasks of an asset have been recorded. -/
def isComplete (expected : UInt32) (tasks : List Task) : Bool :=
  expected.toNat ≤ min tasks.length (UInt32.size - 1)

/-- What becomes of an asset with the given tasks. -/
def ofTasks (time : Timestamp) (a : Asset) (tasks : List Task) : Decision :=
  if a.status.isTerminal then .settled a.status
  else
    match tasks.find? (·.progress == .failed) with
    | some t => .finish (.failed a (Outcome.taskFailedEntry time t.id))
    | none =>
      match a.expectedTasks with
      | none => .wait
      | some expected =>
        if isComplete expected tasks && tasks.all (·.progress == .success) then
          .finish (.saved a (Outcome.savedEntry time a))
        else .wait

end Decision

/-! ## Outcomes of tile caches -/

/-- The column that holds geometries in the projection of web maps. -/
def webMapColumn : String := "geom_wm"

/-- Decides whether dynamic tiles can be rendered from an asset: a saved table with web map
geometries and an index for them. -/
def Asset.servesTiles (a : Asset) : Bool :=
  a.type.isDatabase && a.status == .saved
    && a.metadata.fields.any (·.name == webMapColumn)
    && ((a.options.map (·.indices)).getD []).any (· == ⟨.gist, [webMapColumn]⟩)

/-- The outcome of a dynamic tile cache, given the table below it. -/
def Outcome.ofTileCache (time : Timestamp) (cache : Asset) (table : Option Asset) : Outcome :=
  if table.any (·.servesTiles) then
    .saved cache (.note time .success "Created Dynamic Vector Tile Cache Asset")
  else
    .failed cache ((LogEntry.note time .failed
      "Failed to Create Dynamic Vector Tile Cache Asset.").withDetail
        "Associated database table does not meet criteria.")

end GeoAssets
