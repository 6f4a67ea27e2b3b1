import GeoAssets.Catalog.AssetType
import GeoAssets.Catalog.Status
import GeoAssets.Compute.Job
import GeoAssets.Directory

/-!
# Measurements

What is counted while assets are created and removed. A measurement adds one to the counter of its
series; the time that a submission took counts as one sample.
-/

namespace GeoAssets

/-- Something that is counted. -/
inductive Measurement where
  /-- A job was submitted, or should have been. -/
  | jobSubmitted (kind : JobKind) (succeeded : Bool)
  /-- The jobs of an asset were submitted, or should have been. -/
  | submissionTimed (succeeded : Bool)
  /-- The end of a task was reported. -/
  | taskReported (progress : Progress)
  /-- An asset reached its final status. -/
  | assetSettled (type : AssetType) (status : Status)
  /-- A version followed its default asset. -/
  | versionSettled (status : Status)
  /-- A teardown action was taken, or should have been. -/
  | teardownStep (action : String) (succeeded : Bool)
  deriving DecidableEq, Repr

namespace Measurement

/-- How success and failure are called. -/
def resultName (succeeded : Bool) : String :=
  if succeeded then "success" else "failure"

/-- The metric of a measurement, and its labels in the order of their names. -/
def series : Measurement → String × List (String × String)
  | .jobSubmitted kind ok =>
    ("strata_flow_jobs_submitted_total", [("kind", kind.name), ("result", resultName ok)])
  | .submissionTimed ok => ("strata_flow_submission_duration_seconds", [("result", resultName ok)])
  | .taskReported progress => ("strata_flow_task_reports_total", [("status", progress.name)])
  | .assetSettled type status =>
    ("strata_flow_asset_transitions_total", [("asset_type", type.name), ("status", status.name)])
  | .versionSettled status => ("strata_flow_version_cascades_total", [("status", status.name)])
  | .teardownStep action ok =>
    ("strata_flow_teardown_actions_total", [("action", action), ("result", resultName ok)])

/-- The text of a series. -/
def text (m : Measurement) : String :=
  m.series.1 ++ "\x7b"
    ++ ",".intercalate (m.series.2.map fun label => label.1 ++ "=" ++ label.2) ++ "\x7d"

/-- The counters after a list of measurements, by the texts of their series. -/
def counters (ms : List Measurement) : Directory String Nat :=
  ms.foldl (fun d m => d.insert m.text ((d.get? m.text).getD 0 + 1)) {}

end Measurement

end GeoAssets
