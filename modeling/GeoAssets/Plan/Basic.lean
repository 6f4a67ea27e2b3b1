import GeoAssets.Compute.Graph
import GeoAssets.Plan.Export
import GeoAssets.Plan.Table
import GeoAssets.Plan.Vector

/-!
# Plans

The plan of an asset is the graph of the jobs that create it. An asset that takes no job has the
graph without jobs.
-/

namespace GeoAssets.Plan

/-- The jobs for options of each kind. -/
def jobs (b : Brief) : CreationOptions → Except Error (List Job)
  | .vectorSource s => Vector.jobs b s
  | .tableSource s => Table.jobs b s
  | .staticTiles t => staticTileJobs b t
  | .vectorFile f => fileJobs b f
  | .dynamicTiles _ => .ok []
  | options@(.rasterSource _) | options@(.rasterTileSet _) | options@(.rasterTiles _) =>
    .error (.notImplemented (options.kind ++ " pipeline is not available"))

/-- No job of a graph waits for more jobs than the cluster allows. -/
def checkFanIn (settings : Settings) (g : JobGraph) : Except Error Unit :=
  require (g.maxFanIn ≤ settings.maxParents.toNat)
    (.invalidOptions ("a job would depend on " ++ toString g.maxFanIn
      ++ " parents, the cluster allows " ++ toString settings.maxParents.toNat))

/-- The graph of the jobs that create an asset. -/
def build (b : Brief) : Except Error JobGraph := do
  let options ←
    orElseFail (.invalidOptions ("asset " ++ b.asset.id.text ++ " has no creation options"))
      b.asset.options
  options.validate
  require (options.fits b.asset.type) (Location.misfit options b.asset.type)
  let jobs ← jobs b options
  let g ← JobGraph.ofJobs jobs
  checkFanIn b.settings g
  pure g

end GeoAssets.Plan
