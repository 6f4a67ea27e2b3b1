import GeoAssets.Catalog.Version
import GeoAssets.Options.Basic

/-!
# Assets and tasks

An asset is one thing that a version offers. The jobs of its pipeline are recorded as tasks; an
asset knows how many there will be once all of them have been submitted.
-/

namespace GeoAssets

/-! ## Metadata -/

/-- What is known of an asset's content. -/
structure AssetMetadata where
  /-- The fields of a table, or of the table below a tile cache. -/
  fields : List Field := []
  minZoom : Option UInt8 := none
  maxZoom : Option UInt8 := none
  deriving DecidableEq, Repr

namespace AssetMetadata

/-- The fields of the metadata. -/
def layout : Layout AssetMetadata :=
  ((Layout.listed "fields" Field.codec).and <|
    (Layout.optional "min_zoom" .uint8).and <|
    Layout.optional "max_zoom" .uint8).imap
    (fun (fields, min, max) => ⟨fields, min, max⟩) fun m => (m.fields, m.minZoom, m.maxZoom)

/-- Metadata are written as a record. -/
def codec : Codec AssetMetadata :=
  layout.codec

theorem layout_reads : layout.Reads := by
  have fields := Layout.codec_roundTrips Field.layout_reads
  have zoom (name : String) : (Layout.optional name .uint8).Reads :=
    Layout.optional_reads Codec.uint8_roundTrips Codec.uint8_neverNull
  refine Layout.imap_reads ?_ fun _ => rfl
  refine Layout.and_reads (Layout.listed_reads fields) ?_ (by decide)
  exact Layout.and_reads (zoom "min_zoom") (zoom "max_zoom") (by decide)

end AssetMetadata

/-! ## Assets -/

/-- One thing that a version offers. -/
structure Asset where
  id : AssetId
  /-- The version that the asset belongs to. -/
  key : VersionKey
  type : AssetType
  /-- Where the asset is. No two assets are at one place. -/
  uri : String
  /-- Whether the catalog creates and removes what is at the place. -/
  isManaged : Bool
  /-- Whether the status of the version follows the asset. -/
  isDefault : Bool
  status : Status
  options : Option CreationOptions
  metadata : AssetMetadata
  /-- The number of tasks, once all of them have been submitted. -/
  expectedTasks : Option UInt32
  log : ChangeLog
  created : Timestamp
  deriving DecidableEq, Repr

namespace Asset

/-- The fields of an asset. -/
def layout : Layout Asset :=
  ((Layout.required "asset_id" AssetId.codec).and <|
    VersionKey.layout.and <|
    (Layout.required "asset_type" AssetType.codec).and <|
    (Layout.required "asset_uri" .string).and <|
    (Layout.required "is_managed" .bool).and <|
    (Layout.required "is_default" .bool).and <|
    (Layout.required "status" Status.codec).and <|
    (Layout.nullable "creation_options" CreationOptions.codec).and <|
    (Layout.required "metadata" AssetMetadata.codec).and <|
    (Layout.optional "expected_tasks" .uint32).and <|
    (Layout.required "change_log" LogEntry.codec.list).and <|
    Layout.required "created_on" Timestamp.codec).imap
    (fun (id, key, type, uri, managed, default, status, options, metadata, expected, log,
        created) =>
      ⟨id, key, type, uri, managed, default, status, options, metadata, expected, log, created⟩)
    fun a => (a.id, a.key, a.type, a.uri, a.isManaged, a.isDefault, a.status, a.options,
      a.metadata, a.expectedTasks, a.log, a.created)

/-- Assets are written as records. -/
def codec : Codec Asset :=
  layout.codec

/-- A new asset with an empty log, which the catalog manages. -/
def create (id : AssetId) (key : VersionKey) (type : AssetType) (uri : String)
    (options : CreationOptions) (created : Timestamp) : Asset where
  id := id
  key := key
  type := type
  uri := uri
  isManaged := true
  isDefault := false
  status := .pending
  options := some options
  metadata := {}
  expectedTasks := none
  log := []
  created := created

/-- Decides whether the catalog manages the asset as a table in the database. -/
def isManagedTable (a : Asset) : Bool :=
  a.isManaged && a.type.isDatabase

end Asset

/-! ## Tasks -/

/-- A job that was submitted for an asset. -/
structure Task where
  /-- The id that the cluster assigned. -/
  id : TaskId
  asset : AssetId
  log : ChangeLog
  deriving DecidableEq, Repr

namespace Task

/-- The fields of a task. -/
def layout : Layout Task :=
  ((Layout.required "task_id" TaskId.codec).and <|
    (Layout.required "asset_id" AssetId.codec).and <|
    Layout.required "change_log" LogEntry.codec.list).imap
    (fun (id, asset, log) => ⟨id, asset, log⟩) fun t => (t.id, t.asset, t.log)

/-- Tasks are written as records. -/
def codec : Codec Task :=
  layout.codec

/-- What the last final entry of a task reports; pending if there is none. -/
def progress (t : Task) : Progress :=
  ChangeLog.progress t.log

end Task

end GeoAssets
