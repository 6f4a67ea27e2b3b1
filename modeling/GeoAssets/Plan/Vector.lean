import GeoAssets.Json.Printer
import GeoAssets.Plan.Brief
import GeoAssets.Plan.Chunk
import GeoAssets.Plan.Queue

/-!
# Plans for vector sources

A table is created, loaded, completed with derived fields, indexed, clustered if that is asked for,
and linked to the reference store unless that is declined. Delimited text is loaded in chunks of
files; from other sources each layer is loaded by one job, and the layers queue up.
-/

namespace GeoAssets.Plan

namespace Vector

/-! ## Single jobs -/

/-- The first file of a source. -/
def firstFile (s : VectorSource) : String :=
  s.files.headD ""

/-- The arguments that name the first file, a layer of it, and how it is packed. -/
def layerArgs (s : VectorSource) (layer : String) : List String :=
  ["-s", firstFile s, "-l", layer, "-f", FileName.ofLocation (firstFile s), "-X",
    flag (FileName.isZipped (firstFile s))]

/-- The argument that gives the columns of the table. -/
def schemaArgs (s : VectorSource) : List String :=
  match s.tableSchema with
  | some columns => ["-m", (Column.codec.list.encode columns).print]
  | none => []

/-- The job that creates the table. -/
def createJob (b : Brief) (s : VectorSource) : Job :=
  (b.job "create_vector_schema" .gdalImport "create_vector_schema.sh"
    (layerArgs s (s.resolvedLayers.headD "") ++ schemaArgs s)).withTimeout s.timeout

/-- The job that loads a chunk of files of delimited text. -/
def loadChunkJob (b : Brief) (s : VectorSource) (i : Nat) (files : List String) : Job :=
  ((b.job ("load_vector_csv_data_" ++ toString i) .gdalImport "load_vector_csv_data.sh"
    (sourceArgs files)).withParents [(createJob b s).name]).withTimeout s.timeout

/-- The job that loads a layer. -/
def loadLayerJob (b : Brief) (s : VectorSource) (i : Nat) (layer : String) : Job :=
  (b.job ("load_vector_data_layer_" ++ toString i) .gdalImport "load_vector_data.sh"
    (layerArgs s layer)).withTimeout s.timeout

/-- The load jobs, and the names of those that the rest of the plan waits for. -/
def loadJobs (b : Brief) (s : VectorSource) : Except Error (List Job × List String) :=
  match s.driver with
  | .csv => do
    let size ← filesPerJob s.files.length b.settings.maxParents
    let jobs := (chunks size s.files).mapIdx (loadChunkJob b s)
    pure (jobs, names jobs)
  | _ =>
    pure (inQueues (createJob b s).name b.settings.maxLoadQueues.toNat
      (s.resolvedLayers.mapIdx (loadLayerJob b s)))

/-- The job that adds derived fields. -/
def enrichJob (b : Brief) (s : VectorSource) (parents : List String) : Job :=
  ((b.job "add_gfw_fields" .databaseClient "add_gfw_fields.sh" []).withParents
    parents).withTimeout s.timeout

/-- The job that clusters the table by an index. -/
def clusterJob (b : Brief) (s : VectorSource) (parents : List String) (index : IndexSpec) : Job :=
  ((b.job "cluster_table" .databaseClient "cluster_table.sh" (indexArgs index)).withParents
    parents).withTimeout s.timeout

/-- The job that links geometries to the reference store. -/
def inheritJob (b : Brief) (s : VectorSource) (parents : List String) : Job :=
  ((b.job "inherit_from_geostore" .databaseClient "inherit_geostore.sh" []).withParents
    parents).withTimeout s.timeout

/-! ## The plan -/

/-- The jobs for a vector source. -/
def jobs (b : Brief) (s : VectorSource) : Except Error (List Job) := do
  let create := createJob b s
  let (loads, tails) ← loadJobs b s
  let enrich := enrichJob b s tails
  let indices := indexJobs b enrich.name s.timeout s.indices
  let clusters := (s.cluster.map (clusterJob b s (namesOr enrich.name indices))).toList
  let inherits :=
    if s.addToGeostore then [inheritJob b s (namesOr enrich.name (indices ++ clusters))] else []
  pure ([create] ++ loads ++ [enrich] ++ indices ++ clusters ++ inherits)

end Vector

end GeoAssets.Plan
