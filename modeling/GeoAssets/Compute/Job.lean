import GeoAssets.Catalog.Asset

/-!
# Jobs

A job is one unit of work for the cluster. Its kind decides where it runs and what it gets unless it
asks for something else.
-/

namespace GeoAssets

/-! ## Resources -/

/-- What a job needs to run. -/
structure Resources where
  /-- Virtual processors. -/
  vcpus : UInt32
  memoryMib : UInt32
  deriving DecidableEq, Repr

namespace Resources

/-- The fields of a resource request. -/
def layout : Layout Resources :=
  ((Layout.required "vcpus" .uint32).and (Layout.required "memory_mib" .uint32)).imap
    (fun (vcpus, memory) => ⟨vcpus, memory⟩) fun r => (r.vcpus, r.memoryMib)

/-- Resource requests are written as records. -/
def codec : Codec Resources :=
  layout.codec

theorem layout_reads : layout.Reads :=
  Layout.imap_reads
    (Layout.and_reads (Layout.required_reads Codec.uint32_roundTrips)
      (Layout.required_reads Codec.uint32_roundTrips) (by decide))
    fun _ => rfl

end Resources

/-! ## Kinds -/

/-- The family of containers that a job runs in. -/
inductive JobKind where
  /-- Scripts against the database. -/
  | databaseClient
  /-- Imports of geodata into the database. -/
  | gdalImport
  /-- Exports of geodata out of the database. -/
  | gdalExport
  /-- Rendering of vector tiles. -/
  | tileCache
  | rasterProcessing
  deriving DecidableEq, Repr

namespace JobKind

/-- All members of the type. -/
def all : List JobKind :=
  [.databaseClient, .gdalImport, .gdalExport, .tileCache, .rasterProcessing]

/-- The name of a kind. -/
def name : JobKind → String
  | .databaseClient => "database_client"
  | .gdalImport => "gdal_import"
  | .gdalExport => "gdal_export"
  | .tileCache => "tile_cache"
  | .rasterProcessing => "raster_processing"

/-- Kinds are written by name. -/
def codec : Codec JobKind :=
  .named all name

theorem codec_roundTrips : codec.RoundTrips :=
  Codec.named_roundTrips fun k => by cases k <;> decide

/-- What a job of a kind gets. -/
def resources : JobKind → Resources
  | .databaseClient => ⟨1, 1500⟩
  | .gdalImport | .gdalExport => ⟨1, 2500⟩
  | .tileCache => ⟨48, 96000⟩
  | .rasterProcessing => ⟨48, 350000⟩

/-- How often a job of a kind is tried. -/
def attempts : JobKind → UInt32
  | .rasterProcessing => 2
  | _ => 1

/-- How many seconds an attempt may take. -/
def attemptSeconds : JobKind → UInt64
  | .databaseClient | .gdalImport | .gdalExport => 7500
  | .tileCache => 3600
  | .rasterProcessing => 9600

/-- Decides whether a job connects to the database as a reader. -/
def readsOnly : JobKind → Bool
  | .gdalExport | .tileCache => true
  | _ => false

end JobKind

/-! ## Environments -/

/-- A variable of a job's environment. -/
structure EnvVar where
  name : String
  value : String
  deriving DecidableEq, Repr

namespace EnvVar

/-- The fields of a variable. -/
def layout : Layout EnvVar :=
  ((Layout.required "name" .string).and (Layout.required "value" .string)).imap
    (fun (name, value) => ⟨name, value⟩) fun v => (v.name, v.value)

/-- Variables are written as records. -/
def codec : Codec EnvVar :=
  layout.codec

theorem layout_reads : layout.Reads :=
  Layout.imap_reads
    (Layout.and_reads (Layout.required_reads Codec.string_roundTrips)
      (Layout.required_reads Codec.string_roundTrips) (by decide))
    fun _ => rfl

end EnvVar

/-! ## Jobs -/

/-- One unit of work for the cluster. -/
structure Job where
  /-- Tells the job from the others of its graph. -/
  name : String
  kind : JobKind
  command : List String
  environment : List EnvVar := []
  /-- The names of the jobs that have to finish first. -/
  parents : List String := []
  resources : Resources := kind.resources
  attempts : UInt32 := kind.attempts
  attemptSeconds : UInt64 := kind.attemptSeconds
  deriving DecidableEq, Repr

namespace Job

/-- The fields of a job. -/
def layout : Layout Job :=
  ((Layout.required "name" .string).and <|
    (Layout.required "kind" JobKind.codec).and <|
    (Layout.required "command" Codec.string.list).and <|
    (Layout.required "environment" EnvVar.codec.list).and <|
    (Layout.required "parents" Codec.string.list).and <|
    (Layout.required "resources" Resources.codec).and <|
    (Layout.required "attempts" .uint32).and <|
    Layout.required "attempt_duration_secs" .uint64).imap
    (fun (name, kind, command, environment, parents, resources, attempts, seconds) =>
      ⟨name, kind, command, environment, parents, resources, attempts, seconds⟩)
    fun j => (j.name, j.kind, j.command, j.environment, j.parents, j.resources, j.attempts,
      j.attemptSeconds)

/-- Jobs are written as records. -/
def codec : Codec Job :=
  layout.codec

theorem layout_reads : layout.Reads := by
  have strings := Codec.list_roundTrips Codec.string_roundTrips
  have environment := Codec.list_roundTrips (Layout.codec_roundTrips EnvVar.layout_reads)
  have resources := Layout.codec_roundTrips Resources.layout_reads
  refine Layout.imap_reads ?_ fun _ => rfl
  refine Layout.and_reads (Layout.required_reads Codec.string_roundTrips) ?_ (by decide)
  refine Layout.and_reads (Layout.required_reads JobKind.codec_roundTrips) ?_ (by decide)
  refine Layout.and_reads (Layout.required_reads strings) ?_ (by decide)
  refine Layout.and_reads (Layout.required_reads environment) ?_ (by decide)
  refine Layout.and_reads (Layout.required_reads strings) ?_ (by decide)
  refine Layout.and_reads (Layout.required_reads resources) ?_ (by decide)
  refine Layout.and_reads (Layout.required_reads Codec.uint32_roundTrips) ?_ (by decide)
  exact Layout.required_reads Codec.uint64_roundTrips

/-- The job after other parents. -/
def withParents (j : Job) (parents : List String) : Job :=
  { j with parents }

/-- The job with another time limit, if one is given. -/
def withTimeout (j : Job) (timeout : Option UInt64) : Job :=
  { j with attemptSeconds := timeout.getD j.attemptSeconds }

end Job

end GeoAssets
