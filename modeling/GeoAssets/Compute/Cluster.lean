import GeoAssets.Compute.Backoff
import GeoAssets.Directory
import GeoAssets.Settings.Basic

/-!
# The cluster

The cluster runs jobs and keeps them in order: a job is submitted together with the ids of the jobs
that it waits for, which must be known by then. What the cluster knows here is what was submitted to
it, how attempts ended, and which jobs it refuses.
-/

namespace GeoAssets

/-! ## Requests -/

/-- A job as it is submitted. -/
structure SubmitRequest where
  jobName : String
  queue : String
  definition : String
  command : List String
  environment : List EnvVar
  /-- The jobs that have to finish first. -/
  dependsOn : List TaskId
  resources : Resources
  attempts : UInt32
  attemptSeconds : UInt64
  deriving DecidableEq, Repr

namespace SubmitRequest

/-- The fields of a request. -/
def layout : Layout SubmitRequest :=
  ((Layout.required "job_name" .string).and <|
    (Layout.required "queue" .string).and <|
    (Layout.required "definition" .string).and <|
    (Layout.required "command" Codec.string.list).and <|
    (Layout.required "environment" EnvVar.codec.list).and <|
    (Layout.required "depends_on" TaskId.codec.list).and <|
    (Layout.required "resources" Resources.codec).and <|
    (Layout.required "attempts" .uint32).and <|
    Layout.required "attempt_duration_secs" .uint64).imap
    (fun (name, queue, definition, command, environment, dependsOn, resources, attempts, seconds) =>
      ⟨name, queue, definition, command, environment, dependsOn, resources, attempts, seconds⟩)
    fun r => (r.jobName, r.queue, r.definition, r.command, r.environment, r.dependsOn, r.resources,
      r.attempts, r.attemptSeconds)

/-- Requests are written as records. -/
def codec : Codec SubmitRequest :=
  layout.codec

theorem layout_reads : layout.Reads := by
  have strings := Codec.list_roundTrips Codec.string_roundTrips
  have environment := Codec.list_roundTrips (Layout.codec_roundTrips EnvVar.layout_reads)
  have resources := Layout.codec_roundTrips Resources.layout_reads
  refine Layout.imap_reads ?_ fun _ => rfl
  refine Layout.and_reads (Layout.required_reads Codec.string_roundTrips) ?_ (by decide)
  refine Layout.and_reads (Layout.required_reads Codec.string_roundTrips) ?_ (by decide)
  refine Layout.and_reads (Layout.required_reads Codec.string_roundTrips) ?_ (by decide)
  refine Layout.and_reads (Layout.required_reads strings) ?_ (by decide)
  refine Layout.and_reads (Layout.required_reads environment) ?_ (by decide)
  refine Layout.and_reads
    (Layout.required_reads (Codec.list_roundTrips TaskId.codec_roundTrips)) ?_ (by decide)
  refine Layout.and_reads (Layout.required_reads resources) ?_ (by decide)
  refine Layout.and_reads (Layout.required_reads Codec.uint32_roundTrips) ?_ (by decide)
  exact Layout.required_reads Codec.uint64_roundTrips

/-- The request for a job that waits for others; none if its kind has no target. -/
def ofJob (settings : Settings) (job : Job) (dependsOn : List TaskId) :
    Except Error SubmitRequest := do
  let target ← settings.jobTarget job.kind
  pure {
    jobName := job.name
    queue := target.queue
    definition := target.definition
    command := job.command
    environment := job.environment
    dependsOn := dependsOn
    resources := job.resources
    attempts := job.attempts
    attemptSeconds := job.attemptSeconds }

end SubmitRequest

/-! ## The cluster -/

/-- What the cluster knows. -/
structure Cluster where
  /-- The accepted jobs, first to last. -/
  submitted : List (TaskId × SubmitRequest) := []
  /-- The finished attempts of jobs, first to last. -/
  histories : Directory TaskId (List JobAttempt) := {}
  /-- The names of the jobs that are refused. -/
  refused : List String := []
  deriving Repr

namespace Cluster

/-- Decides whether a job was accepted. -/
def knows (c : Cluster) (id : TaskId) : Bool :=
  c.submitted.any (·.1 == id)

/-- The error of a job that is not accepted. -/
def refusal (jobName reason : String) : Error :=
  .collaborator "cluster" ("job " ++ jobName ++ " " ++ reason)

/-- Accepts a job under a new id unless it is refused or waits for an unknown job. -/
def submit (c : Cluster) (id : TaskId) (r : SubmitRequest) : Except Error Cluster := do
  require (!c.refused.contains r.jobName) (refusal r.jobName "rejected")
  match r.dependsOn.find? (!c.knows ·) with
  | some unknown => .error (refusal r.jobName ("depends on unknown job " ++ unknown.text))
  | none => pure { c with submitted := c.submitted ++ [(id, r)] }

/-- Refuses every job of a name from now on. -/
def refuse (c : Cluster) (jobName : String) : Cluster :=
  { c with refused := jobName :: c.refused }

/-- Sets the finished attempts of a job. -/
def setHistory (c : Cluster) (id : TaskId) (attempts : List JobAttempt) : Cluster :=
  { c with histories := c.histories.insert id attempts }

/-- The finished attempts of a job that is known by its history or its submission. -/
def attempts (c : Cluster) (id : TaskId) : Except Error (List JobAttempt) :=
  match c.histories.get? id with
  | some attempts => .ok attempts
  | none => if c.knows id then .ok [] else .error (.taskNotFound id)

/-- The id of the last accepted job of a name. -/
def idOf? (c : Cluster) (jobName : String) : Option TaskId :=
  (c.submitted.reverse.find? (·.2.jobName == jobName)).map (·.1)

end Cluster

end GeoAssets
