import GeoAssets.Catalog.Store.Basic

/-!
# Assets in the store

The status of an asset changes once, from pending to a final one: `commit` applies a transition if
the asset is still pending and does nothing otherwise. A version that follows the asset changes in
the same commit.
-/

namespace GeoAssets

/-! ## Transitions -/

/-- The end of the work on an asset. -/
structure Transition where
  asset : AssetId
  status : Status
  /-- What is added to the log of the asset. -/
  entry : LogEntry
  /-- The fields of the asset's content, if they are known. -/
  fields : Option (List Field)
  /-- The status that the version takes and what is added to its log, if it follows the asset. -/
  version : Option (Status × LogEntry)
  deriving DecidableEq, Repr

namespace Transition

/-- The asset after the transition. -/
def applyAsset (t : Transition) (a : Asset) : Asset :=
  { a with
    status := t.status
    log := a.log ++ [t.entry]
    metadata := { a.metadata with fields := t.fields.getD a.metadata.fields } }

/-- The version after a transition that it follows. -/
def applyVersion (change : Status × LogEntry) (v : Version) : Version :=
  { v with status := change.1, log := v.log ++ [change.2] }

end Transition

/-- What became of a transition. -/
inductive CommitResult where
  /-- It was applied; the asset and the version that followed it. -/
  | applied (asset : Asset) (version : Option Version)
  /-- The asset had its final status. -/
  | settled (status : Status)
  /-- The asset does not exist. -/
  | missing
  deriving Repr

namespace Store

/-- Applies a transition to a pending asset and to the version that follows it. -/
def commit (s : Store) (t : Transition) : CommitResult × Store :=
  match s.assets.get? t.asset with
  | none => (.missing, s)
  | some a =>
    if a.status.isTerminal then (.settled a.status, s)
    else
      let a := t.applyAsset a
      let s := { s with assets := s.assets.insert t.asset a }
      match t.version, s.versions.get? a.key with
      | some change, some v =>
        let v := Transition.applyVersion change v
        (.applied a (some v), { s with versions := s.versions.insert a.key v })
      | _, _ => (.applied a none, s)

/-! ## Assets -/

/-- Files an asset of a version under a new id at a free place. A version has one default asset. -/
def createAsset (s : Store) (a : Asset) : Except Error Store := do
  require (s.versions.contains a.key) (.notFound "version" a.key.text)
  require (!s.assets.contains a.id) (.alreadyExists "asset" a.id.text)
  s.requirePlace a
  require (!(a.isDefault && s.assets.values.any fun b => b.isDefault && b.key == a.key))
    (.alreadyExists "default asset" a.key.text)
  pure (s.fileAsset a)

/-- Changes an asset that exists. -/
def updateAsset (s : Store) (id : AssetId) (change : Asset → Asset) : Except Error Store := do
  let a ← s.asset id
  pure { s with assets := s.assets.insert id (change a) }

/-- Sets the metadata of an asset. -/
def setMetadata (s : Store) (id : AssetId) (metadata : AssetMetadata) : Except Error Store :=
  s.updateAsset id fun a => { a with metadata }

/-- Adds an entry to the log of an asset. -/
def appendAssetLog (s : Store) (id : AssetId) (e : LogEntry) : Except Error Store :=
  s.updateAsset id fun a => { a with log := a.log ++ [e] }

/-- Sets the number of tasks that an asset's work consists of. -/
def setExpectedTasks (s : Store) (id : AssetId) (count : UInt32) : Except Error Store :=
  s.updateAsset id fun a => { a with expectedTasks := some count }

/-- The error of deleting a default asset by itself. -/
def defaultAssetConflict (a : Asset) : Error :=
  .conflict ("asset " ++ a.id.text ++ " is the default asset of " ++ a.key.text
    ++ "; delete the version instead")

/-- Removes an asset that is not the default one of its version. Gives the asset. -/
def deleteAsset (s : Store) (id : AssetId) : Except Error (Asset × Store) := do
  let a ← s.asset id
  require (!a.isDefault) (defaultAssetConflict a)
  pure (a, s.removeAsset a)

end Store

end GeoAssets
