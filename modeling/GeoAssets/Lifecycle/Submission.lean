import GeoAssets.Lifecycle.World

/-!
# Submitting jobs

A job is submitted with the ids of its parents, which were submitted before it, and a task is
recorded for it. If the store fails, the recording is tried again; a job that the cluster accepted
and that could not be recorded is named in the error, so that it can be found.
-/

namespace GeoAssets.Submission

/-- How often the recording of a task is tried again. -/
def recordRetries : Nat := 2

/-- The ids of the parents of a job, in order. -/
def parentIds (ids : Directory String TaskId) : List String → Except Error (List TaskId)
  | [] => .ok []
  | p :: rest => do
    let id ← orElseFail (.unknownJob p) (ids.get? p)
    let rest ← parentIds ids rest
    pure (id :: rest)

/-- Hands a request to the cluster. Gives the id that the cluster assigned. -/
def submitRequest (r : SubmitRequest) : Flow TaskId :=
  Flow.ofRun fun w =>
    let id := w.ids.task w.ids.tasksDrawn
    match w.cluster.submit id r with
    | .ok cluster =>
      (.ok id, { w with cluster, ids := { w.ids with tasksDrawn := w.ids.tasksDrawn + 1 } })
    | .error e => (.error e, w)

/-- Tries to record a task. A task that exists was recorded before, though it did not look so. -/
def tryRecord (t : Task) : Flow (Option Error) :=
  Flow.ofRun fun w =>
    match w.store.createTask t with
    | (.ok (), store) => (.ok none, { w with store })
    | (.error (.alreadyExists ..), store) => (.ok none, { w with store })
    | (.error e, store) => (.ok (some e), { w with store })

/-- Records a task, trying again a number of times. -/
def recordTask (t : Task) : Nat → Flow Unit
  | 0 => do
    match ← tryRecord t with
    | none => pure ()
    | some e => throw e
  | retries + 1 => do
    match ← tryRecord t with
    | none => pure ()
    | some _ => recordTask t retries

/-- The error of a job that was submitted but not recorded. -/
def unrecorded (id : TaskId) (e : Error) : Error :=
  .storage ("cluster job " ++ id.text ++ " was submitted but its task could not be recorded: "
    ++ e.message) none

/-- The task of a job that was just submitted. -/
def newTask (time : Timestamp) (asset : AssetId) (id : TaskId) (job : Job) : Task where
  id := id
  asset := asset
  log := [.note time .pending ("Scheduled job " ++ job.name)]

/-- Submits a job for an asset and records its task. Gives the id of the task. -/
def submitJob (asset : AssetId) (ids : Directory String TaskId) (job : Job) : Flow TaskId := do
  let dependsOn ← Flow.check (parentIds ids job.parents)
  let settings ← Flow.read (·.settings)
  let request ← Flow.check (SubmitRequest.ofJob settings job dependsOn)
  let id ← submitRequest request
  let now ← Flow.read (·.now)
  match ← Flow.attempt (recordTask (newTask now asset id job) recordRetries) with
  | .ok () => pure id
  | .error e => throw (unrecorded id e)

end GeoAssets.Submission
