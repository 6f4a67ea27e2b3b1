import GeoAssets.Compute.Backoff
import GeoAssets.Lifecycle.Step
import GeoAssets.Plan.Basic

/-!
# Requests

What callers may ask of the orchestrator. A request checks everything before it changes anything, so
that a refused one leaves no trace. What takes longer than the request is handed back as `Work`: the
pipeline of a new asset, or the teardown of a deleted one.
-/

namespace GeoAssets

/-- Work that goes on after a request. -/
structure Work where
  name : String
  activity : Activity
  deriving Repr

namespace Work

/-- The pipeline of a new asset. -/
def pipeline (a : Asset) (graph : JobGraph) : Work where
  name := "pipeline " ++ a.id.text
  activity := .ofGraph a graph .pipeline

/-- The teardown of a deleted asset. -/
def assetTeardown (a : Asset) (actions : List TeardownAction) : Work where
  name := "teardown asset " ++ a.id.text
  activity := .tearDown actions none

/-- The teardown of a deleted version. -/
def versionTeardown (settings : Settings) (key : VersionKey) : Work where
  name := "teardown version " ++ key.text
  activity := .tearDown (Teardown.ofVersion settings key) none

end Work

/-- A version to be created from a source. -/
structure VersionRequest where
  key : VersionKey
  isLatest : Bool := false
  isMutable : Bool := false
  /-- What else is known of it, in any form. -/
  metadata : Json := .null
  sourceType : String
  /-- The options of the source, without their kind. -/
  options : Json

namespace Request

/-! ## Datasets -/

/-- Files a new dataset. -/
def createDataset (d : Dataset) : Flow Dataset := do
  Flow.updateStore (·.createDataset d)
  pure d

/-- Removes a dataset without versions. -/
def deleteDataset (name : String) : Flow Dataset :=
  Flow.takeFromStore (·.deleteDataset name)

/-! ## Making assets -/

/-- The error of options that no default asset is made of. -/
def noDefaultAsset (options : CreationOptions) : Error :=
  .invalidOptions (options.kind ++ " options cannot create a default asset")

/-- The default asset that is made of a source. -/
def defaultAsset (settings : Settings) (now : Timestamp) (id : AssetId) (key : VersionKey)
    (options : CreationOptions) : Except Error Asset := do
  let type ← orElseFail (noDefaultAsset options) options.defaultAssetType?
  let uri ← Location.ofAsset settings key type options
  pure { Asset.create id key type uri options now with isDefault := true }

/-- The default asset of a source and the graph of its jobs. -/
def planSource (settings : Settings) (now : Timestamp) (id : AssetId) (key : VersionKey)
    (sourceType : String) (options : Json) : Except Error (Asset × JobGraph) := do
  let options ← CreationOptions.forSource sourceType options
  let asset ← defaultAsset settings now id key options
  let graph ← Plan.build ⟨settings, asset, []⟩
  pure (asset, graph)

/-- The fields of the default asset among some assets. -/
def defaultFields (assets : List Asset) : List Field :=
  ((assets.find? (·.isDefault)).map (·.metadata.fields)).getD []

/-- An asset that is derived from the default asset of its version, and the graph of its jobs. -/
def planDerived (settings : Settings) (now : Timestamp) (id : AssetId) (key : VersionKey)
    (type : AssetType) (options : Json) (siblings : List Asset) :
    Except Error (Asset × JobGraph) := do
  let options ← CreationOptions.forAssetType type options
  let uri ← Location.ofAsset settings key type options
  let asset := Asset.create id key type uri options now
  let graph ← Plan.build ⟨settings, asset, defaultFields siblings⟩
  pure (asset, graph)

/-! ## Versions -/

/-- Makes the distribution forget what changes with the latest version. A failure has no
consequence. -/
def forgetLatest (key : VersionKey) : Flow Unit := do
  let settings ← Flow.read (·.settings)
  let _ ← Flow.attempt <| Flow.updateServices fun s => do
    let distribution ← s.distribution.invalidate settings.cdnDistribution (Location.latestPaths key)
    pure { s with distribution }

/-- The version of a request. -/
def VersionRequest.version (r : VersionRequest) (now : Timestamp) : Version where
  key := r.key
  isLatest := r.isLatest
  isMutable := r.isMutable
  status := .pending
  metadata := r.metadata
  log := []
  created := now

/-- Files a new version with its default asset. -/
def createVersion (r : VersionRequest) : Flow (Version × Work) := do
  let id ← Flow.drawAssetId
  let settings ← Flow.read (·.settings)
  let now ← Flow.read (·.now)
  let (asset, graph) ← Flow.check (planSource settings now id r.key r.sourceType r.options)
  let version := VersionRequest.version r now
  Flow.updateStore (·.createVersion version asset)
  if version.isLatest then forgetLatest r.key
  pure (version, .pipeline asset graph)

/-- Makes a version the latest of its dataset. -/
def setLatest (key : VersionKey) : Flow Version := do
  let version ← Flow.takeFromStore (·.setLatest key)
  forgetLatest key
  pure version

/-- Removes a version with its assets. -/
def deleteVersion (key : VersionKey) : Flow (Version × Work) := do
  let version ← Flow.takeFromStore (·.deleteVersion key)
  let settings ← Flow.read (·.settings)
  pure (version, .versionTeardown settings key)

/-! ## Assets -/

/-- Files the default asset of a version that exists. -/
def createDefaultAsset (key : VersionKey) (sourceType : String) (options : Json) :
    Flow (Asset × Work) := do
  let _ ← Flow.check =<< Flow.read (·.store.version key)
  let id ← Flow.drawAssetId
  let settings ← Flow.read (·.settings)
  let now ← Flow.read (·.now)
  let (asset, graph) ← Flow.check (planSource settings now id key sourceType options)
  Flow.updateStore (·.createAsset asset)
  pure (asset, .pipeline asset graph)

/-- Files an asset that is derived from the default asset of its version. -/
def createAsset (key : VersionKey) (type : AssetType) (options : Json) : Flow (Asset × Work) := do
  let _ ← Flow.check =<< Flow.read (·.store.version key)
  let id ← Flow.drawAssetId
  let settings ← Flow.read (·.settings)
  let now ← Flow.read (·.now)
  let siblings ← Flow.read (·.store.assetsOf key)
  let (asset, graph) ← Flow.check (planDerived settings now id key type options siblings)
  Flow.updateStore (·.createAsset asset)
  pure (asset, .pipeline asset graph)

/-- Removes an asset that is not the default one of its version. -/
def deleteAsset (id : AssetId) : Flow (Asset × Work) := do
  let asset ← Flow.check =<< Flow.read (·.store.asset id)
  Flow.check (require (!asset.isDefault) (Store.defaultAssetConflict asset))
  let settings ← Flow.read (·.settings)
  let actions ← Flow.check (Teardown.ofAsset settings asset)
  let asset ← Flow.takeFromStore (·.deleteAsset id)
  pure (asset, .assetTeardown asset actions)

/-! ## Tasks -/

/-- The task with an id. -/
def getTask (id : TaskId) : Flow Task :=
  Flow.check =<< Flow.read (·.store.task id)

/-- Takes a report of a task. -/
def report (id : TaskId) (entry : LogEntry) : Activity :=
  .receive id entry

/-- The finished attempts to run a task. -/
def attempts (id : TaskId) : Flow (List JobAttempt) :=
  Flow.check =<< Flow.read (·.cluster.attempts id)

/-- The number of cores with which a task is to be tried again. -/
def resubmissionCores (id : TaskId) (current : UInt32) : Flow UInt32 :=
  Backoff.cores current <$> attempts id

/-- The number of processes with which a task is to be tried again. -/
def resubmissionProcesses (id : TaskId) (current : UInt32) : Flow UInt32 :=
  Backoff.processes current <$> attempts id

end Request

end GeoAssets
