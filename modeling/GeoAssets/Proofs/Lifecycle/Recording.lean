import GeoAssets.Proofs.Lifecycle.Submission

/-!
# Submitting a job

What becomes of a job is known beforehand. It is not accepted if its kind has no target or the
cluster refuses it (`World.refusal?`); otherwise the cluster accepts it under the next id. Then its
task is recorded, unless the store rejects that more often than it is tried.
-/

namespace GeoAssets

/-! ## Tasks in the store -/

/-- The error of a recording that the store rejects. -/
def rejectedWrite : Error :=
  .storage "task write rejected" none

namespace Store

variable {s : Store} {t : Task} {a : Asset}

/-- The store with the task of a job, once no recording is rejected any more. -/
def withTask (s : Store) (t : Task) : Store :=
  { s with
    assetTasks := s.assetTasks.insert t.asset (s.taskIds t.asset ++ [t.id])
    tasks := s.tasks.insert t.id t
    rejectedTaskWrites := 0 }

theorem createTask_of_rejected (h : 0 < s.rejectedTaskWrites) :
    s.createTask t =
      (.error rejectedWrite, s.rejectTaskWrites (s.rejectedTaskWrites - 1)) :=
  if_pos h

theorem createTask_of_new (hwrites : s.rejectedTaskWrites = 0)
    (ha : s.assets.get? t.asset = some a) (hnew : s.tasks.get? t.id = none) :
    s.createTask t = (.ok (), s.withTask t) := by
  simp [createTask, withTask, taskIds, hwrites, Directory.contains, ha, hnew]

theorem taskIds_withTask (s : Store) (t : Task) :
    (s.withTask t).taskIds t.asset = s.taskIds t.asset ++ [t.id] := by
  simp [withTask, taskIds, Directory.get?_insert_self]

theorem get?_tasks_withTask {id : TaskId} (h : t.id ≠ id) :
    (s.withTask t).tasks.get? id = s.tasks.get? id :=
  Directory.get?_insert_of_ne h s.tasks t

/-- A task with a new id comes last among those of its asset. -/
theorem tasksOf_withTask (hnew : t.id ∉ s.taskIds t.asset) :
    (s.withTask t).tasksOf t.asset = s.tasksOf t.asset ++ [t] := by
  have hold : ∀ id ∈ s.taskIds t.asset, (s.withTask t).tasks.get? id = s.tasks.get? id :=
    fun id hid => get?_tasks_withTask fun heq => hnew (heq ▸ hid)
  have hself : (s.withTask t).tasks.get? t.id = some t := Directory.get?_insert_self _ _ _
  change ((s.withTask t).taskIds t.asset).filterMap (s.withTask t).tasks.get? =
    (s.taskIds t.asset).filterMap s.tasks.get? ++ [t]
  rw [taskIds_withTask, List.filterMap_append, List.filterMap_congr hold]
  simp [hself]

end Store

/-! ## Recording -/

namespace Submission

variable {w : World} {t : Task} {a : Asset} {retries : Nat}

theorem tryRecord_of_rejected (h : 0 < w.store.rejectedTaskWrites) :
    (tryRecord t).run w = (.ok (some rejectedWrite),
      { w with store := w.store.rejectTaskWrites (w.store.rejectedTaskWrites - 1) }) := by
  unfold tryRecord
  rw [Flow.run_ofRun, Store.createTask_of_rejected h]
  rfl

theorem tryRecord_of_new (hwrites : w.store.rejectedTaskWrites = 0)
    (ha : w.store.assets.get? t.asset = some a) (hnew : w.store.tasks.get? t.id = none) :
    (tryRecord t).run w = (.ok none, { w with store := w.store.withTask t }) := by
  unfold tryRecord
  rw [Flow.run_ofRun, Store.createTask_of_new hwrites ha hnew]

/-- A new task is recorded if the store does not reject more recordings than are tried again. -/
theorem recordTask_of_le (ha : w.store.assets.get? t.asset = some a)
    (hnew : w.store.tasks.get? t.id = none) (h : w.store.rejectedTaskWrites ≤ retries) :
    (recordTask t retries).run w = (.ok (), { w with store := w.store.withTask t }) := by
  induction retries generalizing w with
  | zero =>
    rw [recordTask, Flow.run_bind, tryRecord_of_new (by omega) ha hnew]
    rfl
  | succ retries ih =>
    rw [recordTask, Flow.run_bind]
    by_cases hwrites : w.store.rejectedTaskWrites = 0
    · rw [tryRecord_of_new hwrites ha hnew]
      rfl
    · rw [tryRecord_of_rejected (by omega)]
      have hle : w.store.rejectedTaskWrites - 1 ≤ retries := by omega
      exact ih (w := { w with
        store := w.store.rejectTaskWrites (w.store.rejectedTaskWrites - 1) }) ha hnew hle

/-- Otherwise every attempt is rejected. -/
theorem recordTask_of_lt (h : retries < w.store.rejectedTaskWrites) :
    (recordTask t retries).run w = (.error rejectedWrite, { w with
      store := w.store.rejectTaskWrites (w.store.rejectedTaskWrites - (retries + 1)) }) := by
  induction retries generalizing w with
  | zero =>
    rw [recordTask, Flow.run_bind, tryRecord_of_rejected h]
    rfl
  | succ retries ih =>
    rw [recordTask, Flow.run_bind, tryRecord_of_rejected (by omega)]
    have hlt : retries <
        (w.store.rejectTaskWrites (w.store.rejectedTaskWrites - 1)).rejectedTaskWrites := by
      simp only [Store.rejectTaskWrites]
      omega
    refine (ih (w := { w with store := w.store.rejectTaskWrites _ }) hlt).trans ?_
    simp only [Store.rejectTaskWrites, Nat.sub_sub, Nat.add_comm 1]

end Submission

/-! ## The cluster -/

namespace World

variable {w : World} {job : Job}

/-- Why a job whose parents were accepted is not accepted, if it is not. -/
def refusal? (w : World) (job : Job) : Option Error :=
  match w.settings.jobTarget job.kind with
  | .error e => some e
  | .ok _ =>
    if job.name ∈ w.cluster.refused then some (Cluster.refusal job.name "rejected") else none

/-- The id that the cluster assigns next. -/
def nextTask (w : World) : TaskId :=
  w.ids.task w.ids.tasksDrawn

/-- The world once the cluster has accepted a request. -/
def accept (w : World) (q : SubmitRequest) : World :=
  { w with
    cluster := { w.cluster with submitted := w.cluster.submitted ++ [(w.nextTask, q)] }
    ids := { w.ids with tasksDrawn := w.ids.tasksDrawn + 1 } }

/-- A kind with a target makes a request. -/
theorem exists_request (h : w.refusal? job = none) (dependsOn : List TaskId) :
    ∃ q, SubmitRequest.ofJob w.settings job dependsOn = .ok q ∧ q.jobName = job.name ∧
      q.dependsOn = dependsOn ∧ job.name ∉ w.cluster.refused := by
  unfold refusal? at h
  split at h
  · cases h
  · next target htarget =>
    have hname : job.name ∉ w.cluster.refused := by
      intro hmem
      simp [hmem] at h
    exact ⟨_, by rw [SubmitRequest.ofJob, htarget]; rfl, rfl, rfl, hname⟩

end World

namespace Submission

variable {w : World} {x : AssetId} {ids : Directory String TaskId} {job : Job}
  {parents : List TaskId}

theorem submitRequest_of_known {q : SubmitRequest} (hname : q.jobName ∉ w.cluster.refused)
    (hknown : ∀ id ∈ q.dependsOn, w.cluster.knows id = true) :
    (submitRequest q).run w = (.ok w.nextTask, w.accept q) := by
  have hfind : q.dependsOn.find? (!w.cluster.knows ·) = none :=
    List.find?_eq_none.mpr fun id hid => by simp [hknown id hid]
  unfold submitRequest Cluster.submit
  rw [Flow.run_ofRun]
  simp [require, hname, hfind, bind, Except.bind, pure, Except.pure, World.nextTask, World.accept]

theorem submitRequest_of_refused {q : SubmitRequest} (hname : q.jobName ∈ w.cluster.refused) :
    (submitRequest q).run w = (.error (Cluster.refusal q.jobName "rejected"), w) := by
  unfold submitRequest Cluster.submit
  rw [Flow.run_ofRun]
  simp [require, hname, bind, Except.bind]

/-- A job that is not accepted changes nothing. -/
theorem submitJob_of_refused {cause : Error} (hparents : parentIds ids job.parents = .ok parents)
    (h : w.refusal? job = some cause) : (submitJob x ids job).run w = (.error cause, w) := by
  rw [submitJob, hparents, Flow.run_check_ok_bind, Flow.run_read_bind]
  unfold World.refusal? at h
  split at h
  · next e htarget =>
    cases h
    rw [SubmitRequest.ofJob, htarget]
    rfl
  · next target htarget =>
    obtain ⟨hname, rfl⟩ : job.name ∈ w.cluster.refused ∧
        Cluster.refusal job.name "rejected" = cause := by simpa using h
    rw [SubmitRequest.ofJob, htarget]
    change (submitRequest _ >>= _).run w = _
    rw [Flow.run_bind, submitRequest_of_refused hname]

section accepted

variable {a : Asset} {q : SubmitRequest}

/-- A job that is accepted goes on with the recording of its task. -/
theorem submitJob_of_accepted (hparents : parentIds ids job.parents = .ok parents)
    (hq : SubmitRequest.ofJob w.settings job parents = .ok q)
    (hname : q.jobName ∉ w.cluster.refused)
    (hknown : ∀ id ∈ q.dependsOn, w.cluster.knows id = true) :
    (submitJob x ids job).run w =
      match (recordTask (newTask w.now x w.nextTask job) recordRetries).run (w.accept q) with
      | (.ok (), w') => (.ok w.nextTask, w')
      | (.error e, w') => (.error (unrecorded w.nextTask e), w') := by
  rw [submitJob, hparents, Flow.run_check_ok_bind, Flow.run_read_bind, hq, Flow.run_check_ok_bind,
    Flow.run_bind, submitRequest_of_known hname hknown]
  dsimp only
  rw [Flow.run_read_bind, Flow.run_attempt_bind]
  change _ = match (recordTask (newTask (w.accept q).now x w.nextTask job) _).run _ with
    | (.ok (), w') => _
    | (.error e, w') => _
  rcases (recordTask _ recordRetries).run (w.accept q) with ⟨_ | _, w'⟩ <;> rfl

/-- The task of an accepted job is recorded if the store does not reject too many attempts. -/
theorem submitJob_of_le (hparents : parentIds ids job.parents = .ok parents)
    (hq : SubmitRequest.ofJob w.settings job parents = .ok q)
    (hname : q.jobName ∉ w.cluster.refused)
    (hknown : ∀ id ∈ q.dependsOn, w.cluster.knows id = true)
    (ha : w.store.assets.get? x = some a) (hnew : w.store.tasks.get? w.nextTask = none)
    (hwrites : w.store.rejectedTaskWrites ≤ recordRetries) :
    (submitJob x ids job).run w = (.ok w.nextTask, { w.accept q with
      store := w.store.withTask (newTask w.now x w.nextTask job) }) := by
  rw [submitJob_of_accepted hparents hq hname hknown,
    recordTask_of_le (w := w.accept q) (t := newTask w.now x w.nextTask job) ha hnew hwrites]
  rfl

/-- Otherwise the error names the job that the cluster accepted. -/
theorem submitJob_of_lt (hparents : parentIds ids job.parents = .ok parents)
    (hq : SubmitRequest.ofJob w.settings job parents = .ok q)
    (hname : q.jobName ∉ w.cluster.refused)
    (hknown : ∀ id ∈ q.dependsOn, w.cluster.knows id = true)
    (hwrites : recordRetries < w.store.rejectedTaskWrites) :
    (submitJob x ids job).run w = (.error (unrecorded w.nextTask rejectedWrite), { w.accept q with
      store := w.store.rejectTaskWrites (w.store.rejectedTaskWrites - (recordRetries + 1)) }) := by
  rw [submitJob_of_accepted hparents hq hname hknown, recordTask_of_lt (w := w.accept q) hwrites]
  rfl

end accepted

end Submission

end GeoAssets
