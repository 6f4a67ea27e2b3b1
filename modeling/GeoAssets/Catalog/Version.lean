import GeoAssets.Catalog.ChangeLog

/-!
# Datasets and versions

A dataset is a named collection of versions. At most one version of a dataset is its latest. The
status of a version is that of its default asset, once that is final.
-/

namespace GeoAssets

/-! ## Datasets -/

/-- A named collection of versions. -/
structure Dataset where
  name : String
  /-- Whether its files may be downloaded. -/
  isDownloadable : Bool
  owner : Option String
  /-- What else is known of it, in any form. -/
  metadata : Json
  log : ChangeLog
  created : Timestamp
  deriving Repr

namespace Dataset

/-- The fields of a dataset. -/
def layout : Layout Dataset :=
  ((Layout.required "dataset" .string).and <|
    (Layout.required "is_downloadable" .bool).and <|
    (Layout.nullable "owner_id" .string).and <|
    (Layout.required "metadata" .free).and <|
    (Layout.required "change_log" LogEntry.codec.list).and <|
    Layout.required "created_on" Timestamp.codec).imap
    (fun (name, downloadable, owner, metadata, log, created) =>
      ⟨name, downloadable, owner, metadata, log, created⟩)
    fun d => (d.name, d.isDownloadable, d.owner, d.metadata, d.log, d.created)

/-- Datasets are written as records. -/
def codec : Codec Dataset :=
  layout.codec

end Dataset

/-! ## Versions -/

/-- What tells versions apart. -/
structure VersionKey where
  dataset : String
  version : String
  deriving DecidableEq, Repr

namespace VersionKey

/-- The text of a key. -/
def text (k : VersionKey) : String :=
  k.dataset ++ "/" ++ k.version

/-- The order of keys: by dataset, then by version. -/
def le (a b : VersionKey) : Bool :=
  a.dataset < b.dataset || (a.dataset == b.dataset && !(b.version < a.version))

/-- The fields of a key. -/
def layout : Layout VersionKey :=
  ((Layout.required "dataset" .string).and (Layout.required "version" .string)).imap
    (fun (dataset, version) => ⟨dataset, version⟩) fun k => (k.dataset, k.version)

/-- Keys are written as records. -/
def codec : Codec VersionKey :=
  layout.codec

end VersionKey

/-- One version of a dataset. -/
structure Version where
  key : VersionKey
  isLatest : Bool
  /-- Whether data may still be appended. -/
  isMutable : Bool
  status : Status
  /-- What else is known of it, in any form. -/
  metadata : Json
  log : ChangeLog
  created : Timestamp
  deriving Repr

namespace Version

/-- The fields of a version. -/
def layout : Layout Version :=
  (VersionKey.layout.and <|
    (Layout.required "is_latest" .bool).and <|
    (Layout.required "is_mutable" .bool).and <|
    (Layout.required "status" Status.codec).and <|
    (Layout.required "metadata" .free).and <|
    (Layout.required "change_log" LogEntry.codec.list).and <|
    Layout.required "created_on" Timestamp.codec).imap
    (fun (key, latest, mutable, status, metadata, log, created) =>
      ⟨key, latest, mutable, status, metadata, log, created⟩)
    fun v => (v.key, v.isLatest, v.isMutable, v.status, v.metadata, v.log, v.created)

/-- Versions are written as records. -/
def codec : Codec Version :=
  layout.codec

end Version

end GeoAssets
