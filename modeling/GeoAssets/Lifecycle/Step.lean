import GeoAssets.Lifecycle.Activity
import GeoAssets.Lifecycle.Submission
import GeoAssets.Lifecycle.TileCache

/-!
# Steps of activities

A step changes the world at once and tells how the activity goes on. An activity that fails has no
further step, but what it did stays done. `step_rank` says that activities end, so that an activity
can be run to its end (`run`).
-/

namespace GeoAssets.Activity

/-! ## Submitting -/

/-- Submits the first of some jobs. -/
def submitNext (asset : Asset) (job : Job) (jobs : List Job) (ids : Directory String TaskId)
    (goal : Option Goal) : Flow Next := do
  match ← Flow.attempt (Submission.submitJob asset.id ids job) with
  | .ok id =>
    Flow.measure (.jobSubmitted job.kind true)
    pure (.goOn (.submit asset jobs (ids.insert job.name id) goal))
  | .error cause =>
    Flow.measure (.jobSubmitted job.kind false)
    pure (.goOn (.abandon asset job.name cause))

/-- The number of tasks of an asset, given the ids of its jobs. No graph that can be kept has too
many jobs (`JobGraph`). -/
def taskCount (ids : Directory String TaskId) : Except Error UInt32 := do
  require (ids.size < UInt32.size) (.invalidOptions "job graph is too large")
  pure (.ofNat ids.size)

/-- Goes on once all jobs have been submitted. -/
def concludeSubmission (asset : Asset) (ids : Directory String TaskId) (goal : Option Goal) :
    Flow Next := do
  Flow.measure (.submissionTimed true)
  let count ← Flow.check (taskCount ids)
  match goal with
  | none => pure (.finished (.submitted ids))
  | some goal => pure (.goOn (.expect asset count goal))

/-- The outcome of an asset with a job that could not be submitted. -/
def abandonedOutcome (time : Timestamp) (asset : Asset) (job : String) (cause : Error) : Outcome :=
  .failed asset
    ((LogEntry.note time .failed ("Failed to submit job " ++ job)).withDetail cause.message)

/-- Settles an asset with a job that could not be submitted, and fails for this reason. -/
def abandonNow (asset : Asset) (job : String) (cause : Error) : Flow Next := do
  let _ ← Flow.ofWorld fun w => w.settle asset (abandonedOutcome w.now asset job cause)
  Flow.measure (.submissionTimed false)
  throw (.submission asset.id job cause.message)

/-! ## Deciding over assets -/

/-- Sets the number of tasks. -/
def expectTasks (asset : Asset) (count : UInt32) (goal : Goal) : Flow Next := do
  Flow.updateStore (·.setExpectedTasks asset.id count)
  pure (.goOn (.evaluate asset.id goal))

/-- The outcome of an asset that takes no jobs. -/
def inspectedOutcome (w : World) (asset : Asset) : Outcome :=
  if asset.type = .dynamicVectorTileCache then
    .ofTileCache w.now asset (TileCache.tableOf? w.store asset.key)
  else .saved asset (Outcome.savedEntry w.now asset)

/-- Decides over an asset that takes no jobs. -/
def inspectNow (asset : Asset) (goal : Goal) : Flow Next := do
  let outcome ← Flow.read (inspectedOutcome · asset)
  Flow.updateStore (·.setExpectedTasks asset.id 0)
  pure (.goOn (.settle asset outcome goal))

/-- Files the dynamic tile cache of a table, or notes in the log of the version that it could not be
filed. -/
def registerNow (table : Asset) (goal : Goal) : Flow Next := do
  match ← Flow.attempt (TileCache.file table) with
  | .ok cache => pure (.goOn (.inspect cache goal))
  | .error e =>
    let now ← Flow.read (·.now)
    Flow.updateStore (·.appendVersionLog table.key (TileCache.failedEntry now e))
    pure (.follow goal none)

/-! ## Reports -/

/-- The error of a report that does not end a task. -/
def notFinal (p : Progress) : Error :=
  .badRequest ("task status must be success or failed, got " ++ p.name)

/-- Takes a report of a task that has ended. -/
def receiveReport (task : TaskId) (entry : LogEntry) : Flow Next := do
  Flow.check (require entry.progress.isTerminal (notFinal entry.progress))
  Flow.measure (.taskReported entry.progress)
  let t ← Flow.check =<< Flow.read (·.store.task task)
  pure (.goOn (.record t.asset task entry))

/-- Records a report of a task and looks whether the tasks of its asset decide over it. -/
def recordReport (task : TaskId) (entry : LogEntry) : Flow Next := do
  let t ← Flow.takeFromStore (·.appendTaskLog task entry)
  let settled ← Flow.ofWorld (·.settleByTasks t.asset)
  pure (.afterReport t settled)

/-! ## Teardown -/

/-- Takes the first of some teardown actions. -/
def takeAction (action : TeardownAction) (actions : List TeardownAction) (error? : Option Error) :
    Flow Next := do
  match ← Flow.attempt (Flow.updateServices (action.run ·)) with
  | .ok () =>
    Flow.measure (.teardownStep action.name true)
    pure (.goOn (.tearDown actions error?))
  | .error e =>
    Flow.measure (.teardownStep action.name false)
    pure (.goOn (.tearDown actions (error?.or (some e))))

/-! ## Steps -/

/-- Takes the next step of an activity, which may fail. -/
def proceed : Activity → Flow Next
  | .submit asset [] ids goal => concludeSubmission asset ids goal
  | .submit asset (job :: jobs) ids goal => submitNext asset job jobs ids goal
  | .abandon asset job cause => abandonNow asset job cause
  | .expect asset count goal => expectTasks asset count goal
  | .evaluate asset goal => Next.follow goal <$> Flow.ofWorld (·.settleByTasks asset)
  | .inspect asset goal => inspectNow asset goal
  | .settle asset outcome goal => Next.follow goal <$> Flow.ofWorld (·.settle asset outcome)
  | .receive task entry => receiveReport task entry
  | .record _ task entry => recordReport task entry
  | .register table goal => registerNow table goal
  | .tearDown [] none => pure (.finished .done)
  | .tearDown [] (some e) => throw e
  | .tearDown (action :: actions) error? => takeAction action actions error?

/-- Takes the next step of an activity. If it fails and the answer is known, the answer is given. -/
def step (a : Activity) : Flow Next :=
  a.proceed.elseGive (a.knownAnswer?.map .finished)

/-! ## Runs -/

/-- A step leaves fewer steps. -/
theorem proceed_gives (a : Activity) : a.proceed.Gives fun next => next.rank < a.rank := by
  cases a with
  | submit asset jobs ids goal =>
    cases jobs with
    | nil =>
      refine .bind fun _ => .bind fun _ => ?_
      cases goal <;> exact .pure (by simp [Next.rank, rank])
    | cons job jobs =>
      refine .bind fun r => ?_
      cases r <;>
        exact .bind fun _ => .pure (by simp only [Next.rank, rank, List.length_cons]; omega)
  | abandon asset job cause => exact .bind fun _ => .bind fun _ => .throw _
  | expect asset count goal => exact .bind fun _ => .pure (by simp [Next.rank, rank])
  | evaluate asset goal =>
    exact .map fun s => by
      have := Next.rank_follow_le goal s
      simp only [rank]
      omega
  | inspect asset goal => exact .bind fun _ => .bind fun _ => .pure (by simp [Next.rank, rank])
  | settle asset outcome goal =>
    exact .map fun s => by
      have := Next.rank_follow_le goal s
      simp only [rank]
      omega
  | receive task entry =>
    exact .bind fun _ => .bind fun _ => .bind fun _ => .pure (by simp [Next.rank, rank])
  | record asset task entry =>
    exact .bind fun t => .bind fun s => .pure (by
      have := Next.rank_afterReport_le t s
      simp only [rank]
      omega)
  | register table goal =>
    refine .bind fun r => ?_
    cases r with
    | ok cache => exact .pure (by simp [Next.rank, rank])
    | error e =>
      exact .bind fun _ => .bind fun _ => .pure (by
        have := Next.rank_follow_le goal none
        simp only [rank]
        omega)
  | tearDown actions error? =>
    cases actions with
    | nil =>
      cases error? with
      | none => exact .pure (by simp [Next.rank, rank])
      | some e => exact .throw e
    | cons action actions =>
      refine .bind fun r => ?_
      cases r <;> exact .bind fun _ => .pure (by simp [Next.rank, rank])

/-- Every activity has a step left. -/
theorem rank_pos (a : Activity) : 0 < a.rank := by
  cases a <;> exact Nat.pos_of_ne_zero (by simp [rank])

/-- A step leaves fewer steps, whether or not the answer is known. -/
theorem step_gives (a : Activity) : a.step.Gives fun next => next.rank < a.rank := by
  refine a.proceed_gives.elseGive fun next h => ?_
  obtain ⟨_, _, rfl⟩ := Option.map_eq_some_iff.mp h
  exact a.rank_pos

/-- Takes all steps of an activity. -/
def run (a : Activity) (w : World) : Except Error Answer × World :=
  match _h : a.step.run w with
  | (.ok (.goOn rest), w') => rest.run w'
  | (.ok (.finished answer), w') => (.ok answer, w')
  | (.error e, w') => (.error e, w')
termination_by a.rank
decreasing_by exact a.step_gives w _ _ ‹_›

end GeoAssets.Activity
