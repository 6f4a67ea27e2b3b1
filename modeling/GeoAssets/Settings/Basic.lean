import GeoAssets.Compute.Job
import GeoAssets.Error

/-!
# Settings

Where the orchestrator keeps its files and tiles, where it sends jobs and what jobs are told. The
defaults suit a single machine.
-/

namespace GeoAssets

/-! ## Where jobs run -/

/-- The queue that a job is sent to, and the definition that it is run by. -/
structure JobTarget where
  queue : String
  definition : String
  deriving DecidableEq, Repr

namespace JobTarget

/-- The fields of a target. -/
def layout : Layout JobTarget :=
  ((Layout.required "queue" .string).and (Layout.required "definition" .string)).imap
    (fun (queue, definition) => ⟨queue, definition⟩) fun t => (t.queue, t.definition)

/-- Targets are written as records. -/
def codec : Codec JobTarget :=
  layout.codec

theorem layout_reads : layout.Reads :=
  Layout.imap_reads
    (Layout.and_reads (Layout.required_reads Codec.string_roundTrips)
      (Layout.required_reads Codec.string_roundTrips) (by decide))
    fun _ => rfl

/-- A name with hyphens for underscores. -/
def hyphenated (name : String) : String :=
  String.ofList (name.toList.map fun c => if c = '_' then '-' else c)

/-- The default target of a kind of jobs. -/
def ofKind (kind : JobKind) : JobTarget where
  queue := "strata-" ++ hyphenated kind.name ++ "-queue"
  definition := "strata-" ++ hyphenated kind.name

end JobTarget

/-- The targets of the kinds of jobs; a kind may have none. -/
structure JobTargets where
  databaseClient : Option JobTarget := none
  gdalImport : Option JobTarget := none
  gdalExport : Option JobTarget := none
  tileCache : Option JobTarget := none
  rasterProcessing : Option JobTarget := none
  deriving DecidableEq, Repr

namespace JobTargets

/-- The target of a kind. -/
def get? (targets : JobTargets) : JobKind → Option JobTarget
  | .databaseClient => targets.databaseClient
  | .gdalImport => targets.gdalImport
  | .gdalExport => targets.gdalExport
  | .tileCache => targets.tileCache
  | .rasterProcessing => targets.rasterProcessing

/-- Sets the target of a kind. -/
def set (targets : JobTargets) (kind : JobKind) (target : JobTarget) : JobTargets :=
  match kind with
  | .databaseClient => { targets with databaseClient := some target }
  | .gdalImport => { targets with gdalImport := some target }
  | .gdalExport => { targets with gdalExport := some target }
  | .tileCache => { targets with tileCache := some target }
  | .rasterProcessing => { targets with rasterProcessing := some target }

theorem get?_set (targets : JobTargets) (kind kind' : JobKind) (target : JobTarget) :
    (targets.set kind target).get? kind' = if kind = kind' then some target
      else targets.get? kind' := by
  cases kind <;> cases kind' <;> rfl

/-- The targets of which every kind has its default. -/
def standard : JobTargets :=
  JobKind.all.foldl (fun targets kind => targets.set kind (.ofKind kind)) {}

/-- Reads the members of an object as targets of the kinds that name them. -/
def readMembers : List (String × Json) → Option JobTargets
  | [] => some {}
  | (name, v) :: rest => do
    let kind ← JobKind.all.find? (·.name == name)
    let target ← JobTarget.codec.decode v
    let targets ← readMembers rest
    pure (targets.set kind target)

/-- The members of an object that names the kinds with a target. -/
def writeMembers (targets : JobTargets) : List (String × Json) :=
  JobKind.all.filterMap fun kind =>
    (targets.get? kind).map fun target => (kind.name, JobTarget.codec.encode target)

/-- Targets are written as an object by kind; no other names may occur in it. -/
def codec : Codec JobTargets where
  encode targets := .object targets.writeMembers
  decode
    | .object members => readMembers members
    | _ => none

/-- What is written for some kinds is read as targets of these kinds. -/
theorem readMembers_filterMap (targets : JobTargets) (kinds : List JobKind)
    (hd : kinds.Nodup) :
    ∃ read, readMembers (kinds.filterMap fun kind =>
        (targets.get? kind).map fun target => (kind.name, JobTarget.codec.encode target))
          = some read
      ∧ ∀ kind, read.get? kind = if kind ∈ kinds then targets.get? kind else none := by
  induction kinds with
  | nil => exact ⟨{}, rfl, fun kind => by cases kind <;> rfl⟩
  | cons k kinds ih =>
    obtain ⟨hk, hd⟩ := List.nodup_cons.mp hd
    obtain ⟨read, hread, hget⟩ := ih hd
    cases ht : targets.get? k with
    | none =>
      refine ⟨read, ?_, fun kind => ?_⟩
      · rw [List.filterMap_cons, ht]; exact hread
      · rw [hget]
        by_cases h : kind = k
        · subst h; simp [hk, ht]
        · simp [h]
    | some t =>
      have hname : JobKind.all.find? (·.name == k.name) = some k := by cases k <;> decide
      have hdecode : JobTarget.codec.decode (JobTarget.codec.encode t) = some t :=
        Layout.codec_roundTrips JobTarget.layout_reads t
      refine ⟨read.set k t, ?_, fun kind => ?_⟩
      · simp [ht, readMembers, hname, hdecode, hread]
      · rw [get?_set, hget]
        by_cases h : k = kind
        · subst h; simp [ht]
        · have h' : ¬kind = k := fun e => h e.symm
          simp [h, h']

theorem codec_roundTrips : codec.RoundTrips := fun targets => by
  obtain ⟨read, hread, hget⟩ := readMembers_filterMap targets JobKind.all (by decide)
  show readMembers targets.writeMembers = some targets
  rw [writeMembers, hread]
  have h : ∀ kind, read.get? kind = targets.get? kind := fun kind => by
    rw [hget]; cases kind <;> rfl
  obtain ⟨a, b, c, d, e⟩ := read
  obtain ⟨a', b', c', d', e'⟩ := targets
  have h1 : a = a' := h .databaseClient
  have h2 : b = b' := h .gdalImport
  have h3 : c = c' := h .gdalExport
  have h4 : d = d' := h .tileCache
  have h5 : e = e' := h .rasterProcessing
  rw [h1, h2, h3, h4, h5]

end JobTargets

/-! ## Connections -/

/-- How jobs connect to the database. -/
structure Connection where
  host : String
  tcpPort : UInt16
  database : String
  user : String
  password : String
  deriving DecidableEq, Repr

namespace Connection

/-- The fields of a connection. -/
def layout : Layout Connection :=
  ((Layout.required "host" .string).and <|
    (Layout.required "port" .uint16).and <|
    (Layout.required "database" .string).and <|
    (Layout.required "user" .string).and <|
    Layout.required "password" .string).imap
    (fun (host, tcpPort, database, user, password) => ⟨host, tcpPort, database, user, password⟩)
    fun c => (c.host, c.tcpPort, c.database, c.user, c.password)

/-- Connections are written as records. -/
def codec : Codec Connection :=
  layout.codec

theorem layout_reads : layout.Reads := by
  refine Layout.imap_reads ?_ fun _ => rfl
  refine Layout.and_reads (Layout.required_reads Codec.string_roundTrips) ?_ (by decide)
  refine Layout.and_reads (Layout.required_reads Codec.uint16_roundTrips) ?_ (by decide)
  refine Layout.and_reads (Layout.required_reads Codec.string_roundTrips) ?_ (by decide)
  refine Layout.and_reads (Layout.required_reads Codec.string_roundTrips) ?_ (by decide)
  exact Layout.required_reads Codec.string_roundTrips

/-- A connection to the same machine. -/
def standard (user : String) : Connection where
  host := "localhost"
  tcpPort := 5432
  database := "geostore"
  user := user
  password := ""

/-- The variables that job scripts read. -/
def environment (c : Connection) : List EnvVar :=
  [⟨"PGHOST", c.host⟩, ⟨"PGPORT", toString c.tcpPort.toNat⟩, ⟨"PGDATABASE", c.database⟩,
    ⟨"PGUSER", c.user⟩, ⟨"PGPASSWORD", c.password⟩]

/-- What stands for a password in diagnostics. -/
def redacted : String := "[REDACTED]"

/-- A connection as it is shown in diagnostics, without its password. -/
def describe (c : Connection) : String :=
  "DatabaseConnection \x7b host: " ++ Text.quoted c.host
    ++ ", port: " ++ toString c.tcpPort.toNat
    ++ ", database: " ++ Text.quoted c.database
    ++ ", user: " ++ Text.quoted c.user
    ++ ", password: " ++ Text.quoted redacted ++ " \x7d"

end Connection

/-! ## All settings -/

/-- The settings of an orchestrator. -/
structure Settings where
  /-- The bucket of files and raster tile sets. -/
  dataLakeBucket : String
  /-- The bucket of tiles. -/
  tileCacheBucket : String
  /-- The distribution that serves tiles. -/
  cdnDistribution : String
  /-- Where tiles are served. -/
  tileCacheUrl : String
  /-- Where jobs report. -/
  statusUrl : String
  region : String
  jobTargets : JobTargets
  /-- How many jobs a job may wait for. -/
  maxParents : UInt64
  /-- How many layers are loaded at the same time. -/
  maxLoadQueues : UInt64
  /-- How jobs connect that write. -/
  writer : Connection
  /-- How jobs connect that only read. -/
  reader : Connection
  deriving DecidableEq, Repr

namespace Settings

/-- The fields of the settings. -/
def layout : Layout Settings :=
  ((Layout.required "data_lake_bucket" .string).and <|
    (Layout.required "tile_cache_bucket" .string).and <|
    (Layout.required "cdn_distribution_id" .string).and <|
    (Layout.required "tile_cache_url" .string).and <|
    (Layout.required "status_url" .string).and <|
    (Layout.required "region" .string).and <|
    (Layout.required "job_targets" JobTargets.codec).and <|
    (Layout.required "max_parents_per_job" .uint64).and <|
    (Layout.required "max_load_queues" .uint64).and <|
    (Layout.required "writer" Connection.codec).and <|
    Layout.required "reader" Connection.codec).imap
    (fun (lake, tiles, cdn, tileUrl, statusUrl, region, targets, parents, queues, writer, reader) =>
      ⟨lake, tiles, cdn, tileUrl, statusUrl, region, targets, parents, queues, writer, reader⟩)
    fun s => (s.dataLakeBucket, s.tileCacheBucket, s.cdnDistribution, s.tileCacheUrl, s.statusUrl,
      s.region, s.jobTargets, s.maxParents, s.maxLoadQueues, s.writer, s.reader)

/-- Settings are written as records. -/
def codec : Codec Settings :=
  layout.codec

theorem layout_reads : layout.Reads := by
  have connection := Layout.codec_roundTrips Connection.layout_reads
  refine Layout.imap_reads ?_ fun _ => rfl
  refine Layout.and_reads (Layout.required_reads Codec.string_roundTrips) ?_ (by decide)
  refine Layout.and_reads (Layout.required_reads Codec.string_roundTrips) ?_ (by decide)
  refine Layout.and_reads (Layout.required_reads Codec.string_roundTrips) ?_ (by decide)
  refine Layout.and_reads (Layout.required_reads Codec.string_roundTrips) ?_ (by decide)
  refine Layout.and_reads (Layout.required_reads Codec.string_roundTrips) ?_ (by decide)
  refine Layout.and_reads (Layout.required_reads Codec.string_roundTrips) ?_ (by decide)
  refine Layout.and_reads (Layout.required_reads JobTargets.codec_roundTrips) ?_ (by decide)
  refine Layout.and_reads (Layout.required_reads Codec.uint64_roundTrips) ?_ (by decide)
  refine Layout.and_reads (Layout.required_reads Codec.uint64_roundTrips) ?_ (by decide)
  refine Layout.and_reads (Layout.required_reads connection) ?_ (by decide)
  exact Layout.required_reads connection

/-- The settings of a single machine. -/
def standard : Settings where
  dataLakeBucket := "strata-data-lake"
  tileCacheBucket := "strata-tile-cache"
  cdnDistribution := "local"
  tileCacheUrl := "http://localhost:8088"
  statusUrl := "http://localhost:8008/tasks"
  region := "us-east-1"
  jobTargets := .standard
  maxParents := 20
  maxLoadQueues := 16
  writer := .standard "strata_writer"
  reader := .standard "strata_reader"

/-- A job may wait for at least one other, and the jobs at the ends of the load queues can all be
waited for by one job. -/
def validate (s : Settings) : Except Error Unit := do
  require (s.maxParents != 0) (.invalidSettings "max_parents_per_job must be at least 1")
  require (s.maxLoadQueues != 0 && s.maxLoadQueues ≤ s.maxParents)
    (.invalidSettings "max_load_queues must be between 1 and max_parents_per_job")

/-- The target of a kind of jobs. -/
def jobTarget (s : Settings) (kind : JobKind) : Except Error JobTarget :=
  orElseFail (.invalidSettings ("no job queue configured for " ++ kind.name))
    (s.jobTargets.get? kind)

/-- The settings as they are shown in diagnostics, without passwords. -/
def describe (s : Settings) : String :=
  ", ".intercalate
    [Text.quoted s.dataLakeBucket, Text.quoted s.tileCacheBucket, Text.quoted s.cdnDistribution,
      Text.quoted s.tileCacheUrl, Text.quoted s.statusUrl, Text.quoted s.region,
      Text.quotedList (JobKind.all.flatMap fun kind =>
        (s.jobTargets.get? kind).toList.flatMap fun t => [t.queue, t.definition]),
      s.writer.describe, s.reader.describe]

end Settings

end GeoAssets
