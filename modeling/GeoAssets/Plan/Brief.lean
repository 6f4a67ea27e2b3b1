import GeoAssets.Catalog.Asset
import GeoAssets.Compute.Job
import GeoAssets.Settings.Basic

/-!
# Briefs

What a plan is made from: the settings, the asset, and the fields of the default asset of its
version. A brief knows what all jobs of its asset have in common: they are told where to report, and
they connect to the database with the rights that their kind needs and no more.
-/

namespace GeoAssets.Plan

/-- What a plan is made from. -/
structure Brief where
  settings : Settings
  asset : Asset
  /-- The fields of the version's default asset. -/
  fields : List Field

namespace Brief

/-- How jobs of a kind connect to the database. -/
def connection (b : Brief) (kind : JobKind) : Connection :=
  if kind.readsOnly then b.settings.reader else b.settings.writer

/-- The environment of jobs of a kind. -/
def environment (b : Brief) (kind : JobKind) : List EnvVar :=
  (b.connection kind).environment
    ++ [⟨"ASSET_ID", b.asset.id.text⟩, ⟨"STATUS_URL", b.settings.statusUrl⟩,
      ⟨"AWS_REGION", b.settings.region⟩]

/-- A job that calls a script for the version. -/
def job (b : Brief) (name : String) (kind : JobKind) (script : String) (args : List String) :
    Job where
  name := name
  kind := kind
  command := [script, "-d", b.asset.key.dataset, "-v", b.asset.key.version] ++ args
  environment := b.environment kind

/-- The name of a file of the version. -/
def fileName (b : Brief) (extension : String) : String :=
  b.asset.key.dataset ++ "_" ++ b.asset.key.version ++ "." ++ extension

end Brief

/-! ## Parts of commands -/

/-- A truth value as scripts expect it. -/
def flag (value : Bool) : String :=
  if value then "True" else "False"

/-- The arguments that name source files. -/
def sourceArgs (files : List String) : List String :=
  files.flatMap fun file => ["-s", file]

/-- The arguments that describe an index. -/
def indexArgs (index : IndexSpec) : List String :=
  ["-C", ",".intercalate index.columns, "-x", index.method.name]

/-! ## Names and parents -/

/-- The names of jobs. -/
def names (jobs : List Job) : List String :=
  jobs.map (·.name)

/-- The names of jobs, or of one job that they all wait for if there are none. -/
def namesOr (fallback : String) (jobs : List Job) : List String :=
  if jobs.isEmpty then [fallback] else names jobs

/-- The jobs that build indices, all of which wait for one job. -/
def indexJobs (b : Brief) (parent : String) (timeout : Option UInt64) (indices : List IndexSpec) :
    List Job :=
  indices.map fun index =>
    ((b.job ("create_index_" ++ index.slug) .databaseClient "create_index.sh"
      (indexArgs index)).withParents [parent]).withTimeout timeout

end GeoAssets.Plan
