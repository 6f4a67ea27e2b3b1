import GeoAssets.Plan.Brief
import GeoAssets.Plan.Chunk

/-!
# Plans for table sources

A table is created, loaded in chunks of files, completed with derived fields and indexed; then each
of its partitions is clustered.
-/

namespace GeoAssets.Plan

namespace Table

/-! ## Single jobs -/

/-- The arguments that say how the table is split. -/
def partitionArgs (s : TableSource) : List String :=
  match s.partitions with
  | some p => ["-p", p.scheme.kind, "-c", p.column]
  | none => []

/-- The job that creates the table. -/
def createJob (b : Brief) (s : TableSource) : Job :=
  (b.job "create_table" .databaseClient "create_tabular_schema.sh"
    (["-s", s.files.headD "", "-D", s.delimiter.name] ++ partitionArgs s)).withTimeout s.timeout

/-- The argument that says that files have no header. -/
def headerArgs (s : TableSource) : List String :=
  if s.hasHeader then [] else ["-H"]

/-- The job that loads a chunk of files. -/
def loadJob (b : Brief) (s : TableSource) (i : Nat) (files : List String) : Job :=
  ((b.job ("load_tabular_data_" ++ toString i) .databaseClient "load_tabular_data.sh"
    (sourceArgs files ++ ["-D", s.delimiter.name] ++ headerArgs s)).withParents
    [(createJob b s).name]).withTimeout s.timeout

/-- The arguments that name the columns of coordinates. -/
def coordinateArgs (s : TableSource) : List String :=
  match s.latitude, s.longitude with
  | some latitude, some longitude => ["--lat", latitude, "--lng", longitude]
  | _, _ => []

/-- The job that adds derived fields. -/
def enrichJob (b : Brief) (s : TableSource) (parents : List String) : Job :=
  ((b.job "enrich_table" .databaseClient "enrich_table.sh" (coordinateArgs s)).withParents
    parents).withTimeout s.timeout

/-- The job that clusters a partition. -/
def clusterJob (b : Brief) (s : TableSource) (parents : List String) (column suffix : String) :
    Job :=
  ((b.job ("cluster_partition_" ++ suffix) .databaseClient "cluster_partition.sh"
    ["-p", suffix, "-c", column]).withParents parents).withTimeout s.timeout

/-- The jobs that cluster the partitions. -/
def clusterJobs (b : Brief) (s : TableSource) (parents : List String) : List Job :=
  match s.partitions with
  | some p => p.scheme.suffixes.map (clusterJob b s parents p.column)
  | none => []

/-! ## The plan -/

/-- The jobs for a table source. -/
def jobs (b : Brief) (s : TableSource) : Except Error (List Job) := do
  let create := createJob b s
  let size ← filesPerJob s.files.length b.settings.maxParents
  let loads := (chunks size s.files).mapIdx (loadJob b s)
  let enrich := enrichJob b s (names loads)
  let indices := indexJobs b enrich.name s.timeout s.indices
  let clusters := clusterJobs b s (namesOr enrich.name indices)
  pure ([create] ++ loads ++ [enrich] ++ indices ++ clusters)

end Table

end GeoAssets.Plan
