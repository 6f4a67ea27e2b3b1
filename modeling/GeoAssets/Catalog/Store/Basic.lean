import GeoAssets.Catalog.Asset
import GeoAssets.Directory

/-!
# The store

The records of the catalog: datasets, versions, assets and tasks. Beside the records the store keeps
two indices, so that no two assets are at one place and the tasks of an asset are found in the order
in which they were created.

Every operation on the store is atomic. The operations stand in the modules below this one; the
directories and how they are looked up stand here.
-/

namespace GeoAssets

/-- The records of the catalog. -/
structure Store where
  datasets : Directory String Dataset := {}
  versions : Directory VersionKey Version := {}
  assets : Directory AssetId Asset := {}
  /-- The asset at each place. -/
  places : Directory String AssetId := {}
  tasks : Directory TaskId Task := {}
  /-- The tasks of each asset, oldest first. -/
  assetTasks : Directory AssetId (List TaskId) := {}
  /-- How many of the next attempts to record a task are going to fail. -/
  rejectedTaskWrites : Nat := 0
  deriving Repr

namespace Store

/-! ## Looking up -/

/-- Decides whether a dataset has versions. -/
def hasVersions (s : Store) (dataset : String) : Bool :=
  s.versions.keys.any (·.dataset == dataset)

/-- The versions of a dataset in the order of their keys. -/
def versionsOf (s : Store) (dataset : String) : List Version :=
  (s.versions.values.filter (·.key.dataset == dataset)).mergeSort (·.key.le ·.key)

/-- The assets of a version in the order of their ids. -/
def assetsOf (s : Store) (key : VersionKey) : List Asset :=
  (s.assets.values.filter (·.key == key)).mergeSort (·.id.le ·.id)

/-- The tasks of an asset, oldest first. -/
def tasksOf (s : Store) (id : AssetId) : List Task :=
  ((s.assetTasks.get? id).getD []).filterMap s.tasks.get?

/-- The version with a key, which has to exist. -/
def version (s : Store) (key : VersionKey) : Except Error Version :=
  orElseFail (.notFound "version" key.text) (s.versions.get? key)

/-- The asset with an id, which has to exist. -/
def asset (s : Store) (id : AssetId) : Except Error Asset :=
  orElseFail (.assetNotFound id) (s.assets.get? id)

/-- The task with an id, which has to exist. -/
def task (s : Store) (id : TaskId) : Except Error Task :=
  orElseFail (.taskNotFound id) (s.tasks.get? id)

/-! ## Filing and removing assets -/

/-- The place of an asset has to be free. -/
def requirePlace (s : Store) (a : Asset) : Except Error Unit :=
  require (!s.places.contains a.uri) (.alreadyExists "asset" a.uri)

/-- Files an asset at its place. -/
def fileAsset (s : Store) (a : Asset) : Store :=
  { s with places := s.places.insert a.uri a.id, assets := s.assets.insert a.id a }

/-- Removes an asset with its place and its tasks. -/
def removeAsset (s : Store) (a : Asset) : Store where
  datasets := s.datasets
  versions := s.versions
  assets := s.assets.erase a.id
  places := s.places.erase a.uri
  tasks := ((s.assetTasks.get? a.id).getD []).foldl Directory.erase s.tasks
  assetTasks := s.assetTasks.erase a.id
  rejectedTaskWrites := s.rejectedTaskWrites

end Store

end GeoAssets
