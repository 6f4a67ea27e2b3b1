import GeoAssets.Proofs.Compute.Order
import GeoAssets.Proofs.Lifecycle.Recording
import GeoAssets.Proofs.Lifecycle.Step
import GeoAssets.Proofs.Pipeline.Accepted

/-!
# Submitting a graph

The jobs of a graph are submitted in order. This ends with the first job that the cluster refuses,
or with the first one if the store rejects all attempts to record it, and then the asset fails; if
there is no such job, all are submitted (`Activity.Submits`). In every case it is known beforehand
which jobs the cluster accepts under which ids, what they depend on, and which tasks are recorded.
-/

namespace GeoAssets

open Submission

/-! ## New ids -/

namespace World

variable {w : World} {x : AssetId} {jobs : List Job} {job : Job}

/-- The id that the cluster assigns after a number of others. -/
def newId (w : World) (i : Nat) : TaskId :=
  w.ids.task (w.ids.tasksDrawn + i)

/-- The ids that the cluster assigns next. -/
def newIds (w : World) (n : Nat) : List TaskId :=
  (List.range n).map w.newId

/-- The ids that jobs get if the cluster accepts them next, one after the other. -/
def idsFor (w : World) (jobs : List Job) : Directory String TaskId :=
  ⟨jobs.mapIdx fun i job => (job.name, w.newId i)⟩

/-- The tasks of an asset that are recorded for these jobs. -/
def newTasks (w : World) (x : AssetId) (jobs : List Job) : List Task :=
  jobs.mapIdx fun i job => newTask w.now x (w.newId i) job

/-- The next ids are distinct, and no task in the store has one of them. -/
structure DrawsNew (w : World) (n : Nat) : Prop where
  nodup : (w.newIds n).Nodup
  unknown : ∀ id ∈ w.newIds n, w.store.tasks.get? id = none
  unlisted : ∀ id ∈ w.newIds n, ∀ x, id ∉ w.store.taskIds x

theorem newIds_succ (w : World) (n : Nat) : w.newIds (n + 1) = w.newIds n ++ [w.newId n] := by
  simp [newIds, List.range_succ]

@[simp] theorem length_newIds (w : World) (n : Nat) : (w.newIds n).length = n := by
  simp [newIds]

theorem newTasks_concat (w : World) (x : AssetId) (jobs : List Job) (job : Job) :
    w.newTasks x (jobs ++ [job]) =
      w.newTasks x jobs ++ [newTask w.now x (w.newId jobs.length) job] := by
  simp [newTasks, List.mapIdx_append]

/-- Each job gets one id. -/
theorem keys_idsFor (w : World) (jobs : List Job) : (w.idsFor jobs).keys = jobs.map (·.name) :=
  List.ext_getElem (by simp [idsFor, Directory.keys]) fun i _ _ => by
    simp [idsFor, Directory.keys]

@[simp] theorem size_idsFor (w : World) (jobs : List Job) : (w.idsFor jobs).size = jobs.length := by
  simp [idsFor, Directory.size]

theorem mem_newIds_of_get? {p : String} {id : TaskId} (h : (w.idsFor jobs).get? p = some id) :
    id ∈ w.newIds jobs.length := by
  obtain ⟨i, hi, heq⟩ := List.mem_mapIdx.mp (Directory.mem_entries_of_get? h)
  obtain ⟨-, rfl⟩ := Prod.mk.inj heq
  exact List.mem_map_of_mem (List.mem_range.mpr hi)

theorem exists_id_of_subset (w : World) {parents : List String}
    (h : parents ⊆ jobs.map (·.name)) :
    ∀ p ∈ parents, ∃ id, (w.idsFor jobs).get? p = some id := by
  intro p hp
  rw [← Directory.mem_keys_iff_get?, keys_idsFor]
  exact h hp

theorem idsFor_concat (h : job.name ∉ jobs.map (·.name)) :
    w.idsFor (jobs ++ [job]) = (w.idsFor jobs).insert job.name (w.newId jobs.length) := by
  have hnone : (w.idsFor jobs).get? job.name = none := by
    rw [← keys_idsFor w jobs, Directory.mem_keys_iff, Bool.not_eq_true,
      Directory.contains_eq_false_iff] at h
    exact h
  have hentries := Directory.entries_insert_of_none hnone (w.newId jobs.length)
  rw [← Directory.mk.injEq] at hentries
  refine Eq.trans ?_ hentries.symm
  simp [idsFor, List.mapIdx_append]

/-- The next id is new. -/
theorem DrawsNew.newId_not_mem {n i : Nat} (h : w.DrawsNew n) (hi : i < n) :
    w.newId i ∉ w.newIds i ∧ w.store.tasks.get? (w.newId i) = none ∧
      w.newId i ∉ w.store.taskIds x := by
  have hmem : w.newId i ∈ w.newIds n := List.mem_map_of_mem (List.mem_range.mpr hi)
  refine ⟨fun hbefore => ?_, h.unknown _ hmem, h.unlisted _ hmem x⟩
  obtain ⟨k, hk, heq⟩ := List.mem_map.mp hbefore
  rw [List.mem_range] at hk
  have hki := List.inj_on_of_nodup_map h.nodup (List.mem_range.mpr (by omega : k < n))
    (List.mem_range.mpr hi) heq
  omega

/-! ## Requests -/

/-- A request asks for a job that depends on its parents, in their order, under the ids that they
have among the accepted jobs. -/
structure Asks (w : World) (accepted : List Job) (job : Job) (q : SubmitRequest) : Prop where
  request : SubmitRequest.ofJob w.settings job q.dependsOn = .ok q
  dependsOn : job.parents.map (w.idsFor accepted).get? = q.dependsOn.map some

/-- The cluster accepts some jobs and nothing else: one after the other, under the next ids. -/
structure HandsOver (w : World) (accepted : List Job) (qs : List SubmitRequest) (c : Cluster) :
    Prop where
  submitted : c.submitted = w.cluster.submitted ++ (w.newIds accepted.length).zip qs
  requests : List.Forall₂ (w.Asks accepted) accepted qs

variable {accepted : List Job} {q : SubmitRequest} {qs : List SubmitRequest} {c : Cluster}

/-- Jobs that are accepted later change nothing about what a job depends on. -/
theorem Asks.concat (h : w.Asks accepted job q) {next : Job}
    (hnext : next.name ∉ accepted.map (·.name)) : w.Asks (accepted ++ [next]) job q where
  request := h.request
  dependsOn := by
    rw [← h.dependsOn, idsFor_concat hnext]
    refine List.map_congr_left fun p hp => Directory.get?_insert_of_ne ?_ _ _
    rintro rfl
    have hsome : (w.idsFor accepted).get? next.name ∈ q.dependsOn.map some :=
      h.dependsOn ▸ List.mem_map_of_mem hp
    obtain ⟨id, -, hid⟩ := List.mem_map.mp hsome
    have hkey := Directory.mem_keys_iff_get?.mpr ⟨id, hid.symm⟩
    exact hnext (keys_idsFor w accepted ▸ hkey)

theorem HandsOver.nil (w : World) : w.HandsOver [] [] w.cluster :=
  ⟨by simp, .nil⟩

theorem HandsOver.length_eq (h : w.HandsOver accepted qs c) : accepted.length = qs.length :=
  h.requests.length_eq

theorem HandsOver.concat (h : w.HandsOver accepted qs c)
    (hjob : job.name ∉ accepted.map (·.name)) (hq : w.Asks accepted job q) :
    w.HandsOver (accepted ++ [job]) (qs ++ [q])
      { c with submitted := c.submitted ++ [(w.newId accepted.length, q)] } where
  submitted := by
    have hlength : (w.newIds accepted.length).length = qs.length := by
      rw [length_newIds, h.length_eq]
    simp only [h.submitted, List.length_append, List.length_singleton, newIds_succ,
      List.zip_append hlength, List.zip_cons_cons, List.zip_nil_right, List.append_assoc]
  requests := by
    refine List.rel_append (h.requests.imp fun _ _ hr => hr.concat hjob) ?_
    exact .cons (hq.concat hjob) .nil

/-- Everything that was accepted is known. -/
theorem HandsOver.knows (h : w.HandsOver accepted qs c) {id : TaskId}
    (hid : id ∈ w.newIds accepted.length) : c.knows id = true := by
  have hle : (w.newIds accepted.length).length ≤ qs.length := by
    rw [length_newIds, h.length_eq]
  rw [← List.map_fst_zip hle] at hid
  obtain ⟨s, hs, rfl⟩ := List.mem_map.mp hid
  simp only [Cluster.knows, h.submitted, List.any_append, Bool.or_eq_true, List.any_eq_true]
  exact .inr ⟨s, hs, beq_self_eq_true _⟩

end World

/-- The ids of parents that all have one. -/
theorem Submission.exists_parentIds {ids : Directory String TaskId} {parents : List String}
    (h : ∀ p ∈ parents, ∃ id, ids.get? p = some id) :
    ∃ l, parentIds ids parents = .ok l ∧ parents.map ids.get? = l.map some := by
  induction parents with
  | nil => exact ⟨[], rfl, rfl⟩
  | cons p rest ih =>
    obtain ⟨⟨id, hid⟩, hrest⟩ := List.forall_mem_cons.mp h
    obtain ⟨l, hl, hmap⟩ := ih hrest
    refine ⟨id :: l, ?_, by simp [hid, hmap]⟩
    simp [parentIds, orElseFail, hid, hl, bind, Except.bind, pure, Except.pure]

/-! ## On the way -/

/-- What has become of a world once some jobs have been submitted for an asset and recorded. -/
structure World.Submitting (w : World) (x : AssetId) (done : List Job) (qs : List SubmitRequest)
    (w₁ : World) : Prop where
  settings : w₁.settings = w.settings
  now : w₁.now = w.now
  ids : w₁.ids = { w.ids with tasksDrawn := w.ids.tasksDrawn + done.length }
  refused : w₁.cluster.refused = w.cluster.refused
  cluster : w.HandsOver done qs w₁.cluster
  assets : w₁.store.assets = w.store.assets
  tasks : w₁.store.tasksOf x = w.newTasks x done
  taskIds : w₁.store.taskIds x = w.store.taskIds x ++ w.newIds done.length
  unknown : ∀ id ∉ w.newIds done.length, w₁.store.tasks.get? id = w.store.tasks.get? id
  takes : ∀ job ∈ done, w.refusal? job = none
  writes : w₁.store.rejectedTaskWrites = if done = [] then w.store.rejectedTaskWrites else 0
  records : done ≠ [] → w.store.rejectedTaskWrites ≤ recordRetries

namespace World.Submitting

variable {w w₁ : World} {x : AssetId} {done : List Job} {qs : List SubmitRequest} {job : Job}
  {a : Asset} {n : Nat}

theorem start (w : World) (hnone : w.store.tasksOf x = []) : w.Submitting x [] [] w where
  settings := rfl
  now := rfl
  ids := rfl
  refused := rfl
  cluster := .nil w
  assets := rfl
  tasks := hnone
  taskIds := by simp [newIds]
  unknown := fun _ _ => rfl
  takes := fun _ hjob => absurd hjob List.not_mem_nil
  writes := rfl
  records := fun hne => absurd rfl hne

theorem measure (h : w.Submitting x done qs w₁) (m : Measurement) :
    w.Submitting x done qs (w₁.measure m) :=
  ⟨h.settings, h.now, h.ids, h.refused, h.cluster, h.assets, h.tasks, h.taskIds, h.unknown,
    h.takes, h.writes, h.records⟩

theorem refusal?_eq (h : w.Submitting x done qs w₁) (job : Job) :
    w₁.refusal? job = w.refusal? job := by
  rw [refusal?, refusal?, h.settings, h.refused]

theorem nextTask_eq (h : w.Submitting x done qs w₁) : w₁.nextTask = w.newId done.length := by
  rw [nextTask, newId, h.ids]

/-- A job that follows its parents, and that the cluster takes, has a request. -/
theorem exists_request (h : w.Submitting x done qs w₁) (hparents : job.parents ⊆ done.map (·.name))
    (htakes : w.refusal? job = none) :
    ∃ parents q, parentIds (w.idsFor done) job.parents = .ok parents ∧
      SubmitRequest.ofJob w₁.settings job parents = .ok q ∧ q.jobName ∉ w₁.cluster.refused ∧
      (∀ id ∈ q.dependsOn, w₁.cluster.knows id = true) ∧ w.Asks done job q := by
  obtain ⟨parents, hids, hmap⟩ := exists_parentIds (exists_id_of_subset w hparents)
  obtain ⟨q, hq, hname, rfl, hrefused⟩ := World.exists_request htakes parents
  refine ⟨_, q, hids, h.settings ▸ hq, ?_, fun id hid => ?_, hq, hmap⟩
  · rwa [h.refused, hname]
  · have hmem : some id ∈ job.parents.map (w.idsFor done).get? :=
      hmap ▸ List.mem_map_of_mem hid
    obtain ⟨p, -, hp⟩ := List.mem_map.mp hmem
    exact h.cluster.knows (mem_newIds_of_get? hp)

/-- The next job is accepted and recorded. -/
theorem next (h : w.Submitting x done qs w₁) (ha : w.store.assets.get? x = some a)
    (hnew : w.DrawsNew n) (hlt : done.length < n) (hname : job.name ∉ done.map (·.name))
    (hparents : job.parents ⊆ done.map (·.name)) (htakes : w.refusal? job = none)
    (hwrites : w₁.store.rejectedTaskWrites ≤ recordRetries) :
    ∃ q w₂, (submitJob x (w.idsFor done) job).run w₁ = (.ok (w.newId done.length), w₂) ∧
      w.Submitting x (done ++ [job]) (qs ++ [q]) w₂ := by
  obtain ⟨parents, q, hids, hq, hrefused, hknown, hasks⟩ := h.exists_request hparents htakes
  obtain ⟨hdrawn, hunknown, hunlisted⟩ := hnew.newId_not_mem (x := x) hlt
  have hfree : w₁.store.tasks.get? w₁.nextTask = none := by
    rw [h.nextTask_eq, h.unknown _ hdrawn, hunknown]
  have hrun := submitJob_of_le hids hq hrefused hknown (h.assets ▸ ha) hfree hwrites
  rw [h.nextTask_eq, h.now] at hrun
  refine ⟨q, _, hrun, ?_⟩
  have hlisted : w.newId done.length ∉ w₁.store.taskIds x := by
    rw [h.taskIds, List.mem_append]
    exact fun hmem => hmem.elim hunlisted hdrawn
  have hlength : (done ++ [job]).length = done.length + 1 := by simp
  constructor
  case settings => exact h.settings
  case now => exact h.now
  case ids => simp [World.accept, h.ids, Nat.add_assoc]
  case refused => exact h.refused
  case cluster =>
    have := h.cluster.concat hname hasks
    rwa [← h.nextTask_eq] at this
  case assets => exact h.assets
  case tasks =>
    rw [newTasks_concat, ← h.tasks]
    exact Store.tasksOf_withTask (t := newTask w.now x (w.newId done.length) job) hlisted
  case taskIds =>
    rw [hlength, newIds_succ, ← List.append_assoc, ← h.taskIds]
    exact Store.taskIds_withTask w₁.store (newTask w.now x (w.newId done.length) job)
  case unknown =>
    intro id hid
    rw [hlength, newIds_succ, List.mem_append, List.mem_singleton, not_or] at hid
    rw [← h.unknown id hid.1]
    exact Store.get?_tasks_withTask (t := newTask w.now x (w.newId done.length) job)
      (Ne.symm hid.2)
  case takes =>
    intro j hj
    rcases List.mem_append.mp hj with hj | hj
    · exact h.takes j hj
    · rwa [List.mem_singleton.mp hj]
  case writes => exact (if_neg (by simp)).symm
  case records =>
    intro _
    by_cases hdone : done = []
    · rwa [h.writes, if_pos hdone] at hwrites
    · exact h.records hdone

end World.Submitting

/-! ## How it ends -/

/-- An asset has failed because of a job, with one new entry in its log. It waits for as many tasks
as before. -/
def World.FailedFor (w : World) (time : Timestamp) (asset a : Asset) (job : Job) (cause : Error) :
    Prop :=
  ∃ b, w.store.assets.get? asset.id = some b ∧ b.status = .failed ∧
    b.log = a.log ++ [(Activity.abandonedOutcome time asset job.name cause).entry] ∧
    b.expectedTasks = a.expectedTasks

namespace Store

theorem commit_tasks (s : Store) (t : Transition) :
    (s.commit t).2.tasksOf = s.tasksOf ∧
      (s.commit t).2.rejectedTaskWrites = s.rejectedTaskWrites := by
  unfold commit
  split
  · exact ⟨rfl, rfl⟩
  · split
    · exact ⟨rfl, rfl⟩
    · dsimp only
      split <;> exact ⟨rfl, rfl⟩

end Store

namespace Activity

variable {w w₁ w₂ : World} {asset a : Asset} {job : Job} {jobs : List Job}
  {ids : Directory String TaskId}

/-- An asset whose job was not submitted or not recorded fails for this reason. -/
theorem abandon_run (ha : w.store.assets.get? asset.id = some a) (hp : a.status = .pending)
    (job : Job) (cause : Error) : ∃ w',
      (abandon asset job.name cause).run w =
        (.error (.submission asset.id job.name cause.message), w') ∧
      w'.cluster = w.cluster ∧ w'.store.tasksOf = w.store.tasksOf ∧
      w'.store.rejectedTaskWrites = w.store.rejectedTaskWrites ∧
      w'.FailedFor w.now asset a job cause := by
  have hpending : a.status.isTerminal = false := by
    rw [hp]
    rfl
  set o := abandonedOutcome w.now asset job.name cause with ho
  obtain ⟨s', hcommit, hrevises⟩ :=
    Store.commit_of_pending (t := o.transition asset (w.fieldsFor asset o)) ha hpending
  obtain ⟨htasks, hwrites⟩ := w.store.commit_tasks (o.transition asset (w.fieldsFor asset o))
  rw [hcommit] at htasks hwrites
  -- a failure does not concern the tile service
  have hsettle : (w.settle asset o).2 = { w with
      store := s', measurements := (w.settle asset o).2.measurements } := by
    rw [World.settle, hcommit]
    simp only [ho, abandonedOutcome, Outcome.failed, Bool.false_eq_true, if_false]
    unfold World.measureSettled
    split <;> rfl
  refine ⟨(w.settle asset o).2.measure (.submissionTimed false), run_of_error ?_, ?_⟩
  · rw [step_run_of_unknown rfl]
    show (abandonNow asset job.name cause).run w = _
    rw [abandonNow, Flow.run_ofWorld_bind, Flow.run_measure_bind]
    rfl
  · rw [hsettle]
    refine ⟨rfl, htasks, hwrites,
      (o.transition asset (w.fieldsFor asset o)).applyAsset a, ?_, rfl, rfl, rfl⟩
    show s'.assets.get? asset.id = _
    rw [hrevises.assets, ha]
    exact congrArg some (Store.only_self _ _ a)

/-- A job that was submitted is followed by the next one. -/
theorem step_submit_of_ok {id : TaskId} (h : (submitJob asset.id ids job).run w = (.ok id, w₁)) :
    (submit asset (job :: jobs) ids none).step.run w =
      (.ok (.goOn (.submit asset jobs (ids.insert job.name id) none)),
        w₁.measure (.jobSubmitted job.kind true)) := by
  refine step_run_of_ok ?_
  show (submitNext asset job jobs ids none).run w = _
  rw [submitNext, Flow.run_attempt_bind, h]
  rfl

/-- After a job that was not submitted, or not recorded, the asset is failed and nothing else is
done. -/
theorem run_submit_of_error (jobs : List Job) {cause : Error}
    (h : (submitJob asset.id ids job).run w = (.error cause, w₁))
    (ha : w₁.store.assets.get? asset.id = some a) (hp : a.status = .pending) : ∃ w',
      (submit asset (job :: jobs) ids none).run w =
        (.error (.submission asset.id job.name cause.message), w') ∧
      w'.cluster = w₁.cluster ∧ w'.store.tasksOf = w₁.store.tasksOf ∧
      w'.store.rejectedTaskWrites = w₁.store.rejectedTaskWrites ∧
      w'.FailedFor w₁.now asset a job cause := by
  have hstep : (submit asset (job :: jobs) ids none).step.run w =
      (.ok (.goOn (.abandon asset job.name cause)),
        w₁.measure (.jobSubmitted job.kind false)) := by
    refine step_run_of_ok ?_
    show (submitNext asset job jobs ids none).run w = _
    rw [submitNext, Flow.run_attempt_bind, h]
    rfl
  rw [run_of_goOn hstep]
  exact abandon_run (w := w₁.measure (.jobSubmitted job.kind false)) ha hp job cause

/-- What becomes of jobs that are submitted in order for an asset. -/
inductive Submits (w : World) (asset a : Asset) (order : List Job) :
    Except Error Answer → World → Prop
  /-- All are accepted and recorded. -/
  | all {qs : List SubmitRequest} {w' : World} (htakes : ∀ job ∈ order, w.refusal? job = none)
      (hrecords : order ≠ [] → w.store.rejectedTaskWrites ≤ recordRetries)
      (hcluster : w.HandsOver order qs w'.cluster)
      (htasks : w'.store.tasksOf asset.id = w.newTasks asset.id order)
      (hassets : w'.store.assets = w.store.assets) (hsize : order.length < UInt32.size) :
      Submits w asset a order (.ok (.submitted (w.idsFor order))) w'
  /-- All are accepted and recorded, but there are more than can be counted, as in no graph that can
  be kept (`JobGraph`). -/
  | uncounted {qs : List SubmitRequest} {w' : World}
      (htakes : ∀ job ∈ order, w.refusal? job = none)
      (hrecords : order ≠ [] → w.store.rejectedTaskWrites ≤ recordRetries)
      (hcluster : w.HandsOver order qs w'.cluster)
      (htasks : w'.store.tasksOf asset.id = w.newTasks asset.id order)
      (hassets : w'.store.assets = w.store.assets) (hsize : UInt32.size ≤ order.length) :
      Submits w asset a order (.error (.invalidOptions "job graph is too large")) w'
  /-- The first job that is not accepted ends it; those before it are recorded. -/
  | refused {accepted rest : List Job} {job : Job} {cause : Error} {qs : List SubmitRequest}
      {w' : World} (horder : order = accepted ++ job :: rest)
      (htakes : ∀ job ∈ accepted, w.refusal? job = none)
      (hrecords : accepted ≠ [] → w.store.rejectedTaskWrites ≤ recordRetries)
      (hrefused : w.refusal? job = some cause) (hcluster : w.HandsOver accepted qs w'.cluster)
      (htasks : w'.store.tasksOf asset.id = w.newTasks asset.id accepted)
      (hfailed : w'.FailedFor w.now asset a job cause) :
      Submits w asset a order (.error (.submission asset.id job.name cause.message)) w'
  /-- The first job is accepted, but all attempts to record it are rejected, and that ends it. The
  error names the job. -/
  | unrecorded {rest : List Job} {job : Job} {cause : Error} {q : SubmitRequest} {w' : World}
      (horder : order = job :: rest) (htakes : w.refusal? job = none)
      (hwrites : w.store.rejectedTaskWrites =
        w'.store.rejectedTaskWrites + (recordRetries + 1))
      (hcluster : w.HandsOver [job] [q] w'.cluster) (htasks : w'.store.tasksOf asset.id = [])
      (hnames : (w.newId 0).text.toList <:+: cause.message.toList)
      (hfailed : w'.FailedFor w.now asset a job cause) :
      Submits w asset a order (.error (.submission asset.id job.name cause.message)) w'

/-- Once all jobs have been submitted, their ids are given. -/
theorem conclude_run (h : ids.size < UInt32.size) :
    (submit asset [] ids none).run w =
      (.ok (.submitted ids), w.measure (.submissionTimed true)) := by
  refine run_of_finished (step_run_of_ok ?_)
  show (concludeSubmission asset ids none).run w = _
  rw [concludeSubmission, Flow.run_measure_bind, taskCount, require, if_pos (by simpa using h)]
  rfl

theorem conclude_run_of_le (h : UInt32.size ≤ ids.size) :
    (submit asset [] ids none).run w =
      (.error (.invalidOptions "job graph is too large"), w.measure (.submissionTimed true)) := by
  refine run_of_error ?_
  rw [step_run_of_unknown rfl]
  show (concludeSubmission asset ids none).run w = _
  rw [concludeSubmission, Flow.run_measure_bind, taskCount, require, if_neg (by simpa using h)]
  rfl

section run

variable {done rest order : List Job} {qs : List SubmitRequest}

/-- A job that is not accepted ends the submission. -/
theorem run_of_refused (h : w.Submitting asset.id done qs w₁)
    (ha : w.store.assets.get? asset.id = some a) (hp : a.status = .pending)
    (horder : order = done ++ job :: rest) (hparents : job.parents ⊆ done.map (·.name))
    {cause : Error} (hrefused : w.refusal? job = some cause) :
    Submits w asset a order ((submit asset (job :: rest) (w.idsFor done) none).run w₁).1
      ((submit asset (job :: rest) (w.idsFor done) none).run w₁).2 := by
  obtain ⟨parents, hids, -⟩ := exists_parentIds (World.exists_id_of_subset w hparents)
  have hsubmit := submitJob_of_refused (x := asset.id) hids ((h.refusal?_eq job).trans hrefused)
  obtain ⟨w', hrun, hcluster, htasks, -, hfailed⟩ :=
    run_submit_of_error rest hsubmit (h.assets ▸ ha) hp
  rw [hrun]
  refine .refused horder h.takes h.records hrefused (hcluster ▸ h.cluster) ?_ (h.now ▸ hfailed)
  rw [htasks, h.tasks]

/-- A job that is accepted but cannot be recorded is the first one, and ends the submission. -/
theorem run_of_unrecorded (h : w.Submitting asset.id done qs w₁)
    (ha : w.store.assets.get? asset.id = some a) (hp : a.status = .pending)
    (horder : order = done ++ job :: rest) (hparents : job.parents ⊆ done.map (·.name))
    (hname : job.name ∉ done.map (·.name)) (htakes : w.refusal? job = none)
    (hwrites : recordRetries < w₁.store.rejectedTaskWrites) :
    Submits w asset a order ((submit asset (job :: rest) (w.idsFor done) none).run w₁).1
      ((submit asset (job :: rest) (w.idsFor done) none).run w₁).2 := by
  -- once a task has been recorded, no recording is rejected any more
  obtain rfl : done = [] := by
    by_contra hne
    rw [h.writes, if_neg hne] at hwrites
    omega
  obtain rfl : qs = [] := List.eq_nil_of_length_eq_zero h.cluster.length_eq.symm
  obtain ⟨parents, q, hids, hq, hrefused, hknown, hasks⟩ := h.exists_request hparents htakes
  have hsubmit := submitJob_of_lt (x := asset.id) hids hq hrefused hknown hwrites
  have hcluster₁ := h.cluster.concat hname hasks
  have hnext := h.nextTask_eq
  obtain ⟨w', hrun, hcluster, htasks, hleft, hfailed⟩ :=
    run_submit_of_error rest hsubmit (h.assets ▸ ha) hp
  rw [hrun]
  refine .unrecorded (q := q) horder htakes ?_ ?_ ?_ ?_ ?_
  · have hkept : w₁.store.rejectedTaskWrites = w.store.rejectedTaskWrites := h.writes
    simp only [Store.rejectTaskWrites] at hleft
    show w.store.rejectedTaskWrites = w'.store.rejectedTaskWrites + (recordRetries + 1)
    omega
  · rw [hcluster]
    rw [← hnext] at hcluster₁
    exact hcluster₁
  · rw [htasks]
    exact h.tasks
  · rw [hnext]
    exact text_infix_unrecorded _ _
  · rw [← h.now]
    exact hfailed

/-- The jobs that are left are submitted as the first ones were. -/
theorem run_submits (h : w.Submitting asset.id done qs w₁)
    (ha : w.store.assets.get? asset.id = some a) (hp : a.status = .pending)
    (horder : order = done ++ rest) (hn : (order.map (·.name)).Nodup)
    (hfirst : JobGraph.ParentsFirst order) (hnew : w.DrawsNew order.length) :
    Submits w asset a order ((submit asset rest (w.idsFor done) none).run w₁).1
      ((submit asset rest (w.idsFor done) none).run w₁).2 := by
  induction rest generalizing done qs w₁ with
  | nil =>
    obtain rfl : order = done := by rw [horder, List.append_nil]
    have hm := h.measure (.submissionTimed true)
    by_cases hsize : order.length < UInt32.size
    · rw [conclude_run (by simpa using hsize)]
      exact .all h.takes h.records hm.cluster hm.tasks hm.assets hsize
    · rw [conclude_run_of_le (by simpa using hsize)]
      exact .uncounted h.takes h.records hm.cluster hm.tasks hm.assets (by simpa using hsize)
  | cons job rest ih =>
    have hparents : job.parents ⊆ done.map (·.name) := hfirst done job rest horder
    have hname : job.name ∉ done.map (·.name) := by
      rw [horder, List.map_append, List.map_cons] at hn
      intro hmem
      exact (List.nodup_append.mp hn).2.2 _ hmem _ List.mem_cons_self rfl
    cases hrefusal : w.refusal? job with
    | some cause => exact run_of_refused h ha hp horder hparents hrefusal
    | none =>
      by_cases hwrites : w₁.store.rejectedTaskWrites ≤ recordRetries
      · have hlt : done.length < order.length := by simp [horder]
        obtain ⟨q, w₂, hsubmit, h₂⟩ := h.next ha hnew hlt hname hparents hrefusal hwrites
        rw [run_of_goOn (step_submit_of_ok hsubmit), ← World.idsFor_concat hname]
        exact ih (h₂.measure _) (by simp [horder])
      · exact run_of_unrecorded h ha hp horder hparents hname hrefusal (by omega)

end run

/-- The jobs of a graph are submitted in order for a pending asset that has no tasks. -/
theorem submit_submits {given : List Job} {g : JobGraph} (hg : JobGraph.ofJobs given = .ok g)
    (ha : w.store.assets.get? asset.id = some a) (hp : a.status = .pending)
    (hnone : w.store.tasksOf asset.id = []) (hnew : w.DrawsNew g.size) :
    ∃ order, g.sorted = .ok order ∧ Submits w asset a order
      ((submit asset order {} none).run w).1 ((submit asset order {} none).run w).2 := by
  obtain ⟨hsorted, -, hperm, hfirst⟩ := JobGraph.order_of_ofJobs hg
  have hn : (g.order.map (·.name)).Nodup :=
    (hperm.map _).nodup_iff.mpr (JobGraph.listed_of_ofJobs hg).1
  rw [← g.length_order] at hnew
  exact ⟨g.order, hsorted, run_submits (.start w hnone) ha hp rfl hn hfirst hnew⟩

namespace Sample

/-- A pending asset without tasks. -/
def table : Asset :=
  .create ⟨⟨0⟩⟩ ⟨"d", "v"⟩ .geoDatabaseTable "" (.tableSource { files := ["a.csv"] }) ⟨0, 0⟩

/-- A cluster that refuses tiles, and a store that rejects the next two recordings of tasks. -/
def tilesRefused : World where
  settings := .standard
  now := ⟨0, 0⟩
  ids := Orchestrator.Sample.ids
  store := { assets := ⟨[(table.id, table)]⟩, rejectedTaskWrites := 2 }
  cluster := { refused := ["tiles"] }

theorem tilesRefused_drawsNew : tilesRefused.DrawsNew 2 where
  nodup := by decide +kernel
  unknown := fun _ _ => rfl
  unlisted := fun _ _ _ => List.not_mem_nil

end Sample

open Sample JobGraph.Sample in
/-- The grid is accepted and recorded; then the tiles are refused. -/
theorem tilesRefused_submits : ∃ g order, JobGraph.ofJobs [tiles, grid] = .ok g ∧
    g.sorted = .ok order ∧
    Submits tilesRefused table table order ((submit table order {} none).run tilesRefused).1
      ((submit table order {} none).run tilesRefused).2 ∧
    ((submit table order {} none).run tilesRefused).2.cluster.submitted.map (·.2.jobName) =
      ["grid"] := by
  have hcomputed : (JobGraph.ofJobs [tiles, grid]).toOption.map (·.order) =
      some [grid, tiles] := by decide +kernel
  obtain ⟨g, hg, horder⟩ := exists_ok_of_map_toOption hcomputed
  have hsize : g.size = 2 := by
    rw [JobGraph.size, JobGraph.jobs_of_ofJobs hg]
    rfl
  have ha : tilesRefused.store.assets.get? table.id = some table := rfl
  have hnone : tilesRefused.store.tasksOf table.id = [] := rfl
  obtain ⟨order, hsorted, hsubmits⟩ :=
    submit_submits hg ha rfl hnone (hsize ▸ tilesRefused_drawsNew)
  refine ⟨g, order, hg, hsorted, hsubmits, ?_⟩
  obtain rfl : g.order = order :=
    Except.ok.inj ((JobGraph.order_of_ofJobs hg).1.symm.trans hsorted)
  rw [horder]
  decide +kernel

end Activity

end GeoAssets
