import GeoAssets.Catalog.Store.Basic

/-!
# Datasets and versions in the store

A version is created together with its default asset and deleted together with all its assets. At
most one version of a dataset is its latest: whoever becomes the latest takes the tag from the
others, and a version that has it stays as long as there are others.
-/

namespace GeoAssets.Store

/-! ## Datasets -/

/-- Files a dataset under a new name. -/
def createDataset (s : Store) (d : Dataset) : Except Error Store := do
  require (!s.datasets.contains d.name) (.alreadyExists "dataset" d.name)
  pure { s with datasets := s.datasets.insert d.name d }

/-- Removes a dataset that has no versions. Gives the dataset. -/
def deleteDataset (s : Store) (name : String) : Except Error (Dataset × Store) := do
  let d ← orElseFail (.notFound "dataset" name) (s.datasets.get? name)
  require (!s.hasVersions name)
    (.conflict ("dataset " ++ name ++ " has versions; delete them first"))
  pure (d, { s with datasets := s.datasets.erase name })

/-! ## The latest version -/

/-- Takes the tag of the latest version from every version of a dataset but one. -/
def demoteOthers (s : Store) (key : VersionKey) : Store :=
  { s with versions := s.versions.mapValues fun k v =>
      if k.dataset = key.dataset ∧ k ≠ key then { v with isLatest := false } else v }

/-- Makes a version the latest of its dataset. Gives the version. -/
def setLatest (s : Store) (key : VersionKey) : Except Error (Version × Store) := do
  let v ← s.version key
  let promoted := { v with isLatest := true }
  let s := s.demoteOthers key
  pure (promoted, { s with versions := s.versions.insert key promoted })

/-! ## Versions -/

/-- Files a version under a new key together with its default asset at a free place. -/
def createVersion (s : Store) (v : Version) (a : Asset) : Except Error Store := do
  require (s.datasets.contains v.key.dataset) (.notFound "dataset" v.key.dataset)
  require (!s.versions.contains v.key) (.alreadyExists "version" v.key.text)
  s.requirePlace a
  let s := if v.isLatest then s.demoteOthers v.key else s
  pure (({ s with versions := s.versions.insert v.key v } : Store).fileAsset a)

/-- Adds an entry to the log of a version. -/
def appendVersionLog (s : Store) (key : VersionKey) (e : LogEntry) : Except Error Store := do
  let v ← s.version key
  pure { s with versions := s.versions.insert key { v with log := v.log ++ [e] } }

/-- Removes a version with its assets, unless it is the latest of several. Gives the version. -/
def deleteVersion (s : Store) (key : VersionKey) : Except Error (Version × Store) := do
  let v ← s.version key
  let hasSiblings := s.versions.keys.any fun k => k.dataset == key.dataset && k != key
  require (!(v.isLatest && hasSiblings))
    (.conflict ("version " ++ key.text ++ " is tagged latest; promote another version first"))
  let owned := s.assets.values.filter (·.key == key)
  let s := owned.foldl removeAsset s
  pure (v, { s with versions := s.versions.erase key })

end GeoAssets.Store
