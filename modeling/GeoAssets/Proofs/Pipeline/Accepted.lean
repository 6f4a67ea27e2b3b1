import GeoAssets.Proofs.Pipeline.Watched
import GeoAssets.Proofs.Run.Atomic
import GeoAssets.Proofs.Run.Consistent
import GeoAssets.Proofs.Run.Pieces
import Mathlib.Data.List.Induction
import Mathlib.Data.List.Infix

/-!
# What becomes of accepted jobs

The cluster runs every job that it has accepted, whatever becomes of the asset. The task of such a
job is recorded at once, or else the last step of the pipeline fails the asset with an entry that
names the job (`Orchestrator.Fate`). That step comes too late if the asset was removed or has failed
by then: the job runs on, and no record tells of it.
-/

namespace GeoAssets

/-! ## Submitting -/

/-- The cluster accepts a job under an id. -/
def World.Accepts (w : World) (job : Job) (id : TaskId) (w' : World) : Prop :=
  ∃ q : SubmitRequest, q.jobName = job.name ∧
    w'.cluster.submitted = w.cluster.submitted ++ [(id, q)]

/-- The entry says that something failed, and names the job of an id. -/
structure LogEntry.Names (e : LogEntry) (id : TaskId) : Prop where
  progress : e.progress = .failed
  detail : ∃ text, e.detail = some text ∧ id.text.toList <:+: text.toList

theorem Cluster.submitted_of_submit {c c' : Cluster} {id : TaskId} {q : SubmitRequest}
    (h : c.submit id q = .ok c') : c'.submitted = c.submitted ++ [(id, q)] := by
  simp only [Cluster.submit, bind_eq_ok_iff] at h
  obtain ⟨_, _, h⟩ := h
  split at h
  · cases h
  · cases h
    rfl

namespace Submission

variable {w w' : World}

/-- The error of a job that was not recorded leads to it. -/
theorem text_infix_unrecorded (id : TaskId) (e : Error) :
    id.text.toList <:+: (unrecorded id e).message.toList := by
  have hmessage : (unrecorded id e).message = "storage error: " ++ ("cluster job " ++ id.text ++
      " was submitted but its task could not be recorded: " ++ e.message) := rfl
  rw [hmessage]
  simp only [String.toList_append]
  -- the id stands in the middle of the wording
  refine List.infix_append_of_infix_right ?_
  refine List.infix_append_of_infix_left (List.infix_append_of_infix_left ?_)
  exact List.infix_append_right

/-- A job that the cluster accepts has its task recorded, or the error names it. -/
theorem submitJob_accepts {asset : AssetId} {ids : Directory String TaskId} {job : Job}
    {r : Except Error TaskId} (hw : w.Sound) (hd : w'.ids.Distinct)
    (h : (submitJob asset ids job).run w = (r, w')) :
    w'.cluster = w.cluster ∨ ∃ id, w.Accepts job id w' ∧
      ((r = .ok id ∧ ∃ t ∈ w'.store.tasksOf asset, t.id = id) ∨
        ∃ e, r = .error (unrecorded id e)) := by
  rcases submitJob_inv hw hd h with ⟨rfl, _⟩ | ⟨id, q, cluster, s, _, hname, hc, rfl, hs⟩
  · exact Or.inl rfl
  · refine Or.inr ⟨id, ⟨q, hname, Cluster.submitted_of_submit hc⟩, ?_⟩
    rcases hs with ⟨rfl, hs⟩ | ⟨e, rfl, _⟩
    · exact Or.inl ⟨rfl, _, hs.mem_tasksOf_of_createTask hw.wellFormed, rfl⟩
    · exact Or.inr ⟨e, rfl⟩

end Submission

/-! ## Steps -/

/-- The cluster has accepted nothing. -/
def World.AcceptsNothing (w w' : World) : Prop :=
  w'.cluster = w.cluster

instance : World.Permits World.AcceptsNothing where
  refl := fun _ => rfl
  trans := fun h h' => Eq.trans h' h
  measure := fun _ _ => rfl
  drawAsset := fun _ => rfl
  tiles := fun _ _ => rfl
  tearDown := fun _ _ _ _ => rfl
  commit := fun _ _ => rfl
  createTask := fun _ _ => rfl
  updateAsset := fun _ _ _ _ _ => rfl
  createAsset := fun _ _ _ _ => rfl
  appendTaskLog := fun _ _ _ _ _ _ => rfl
  appendVersionLog := fun _ _ _ _ _ => rfl

namespace Activity

variable {w w' : World}

/-- A job that the cluster accepts in a step has its task recorded, or the next step names it. -/
theorem step_accepts {a : Activity} {r : Except Error Next} (hw : w.Sound) (hd : w'.ids.Distinct)
    (h : a.step.run w = (r, w')) :
    w'.cluster = w.cluster ∨ ∃ asset job jobs ids goal id,
      a = .submit asset (job :: jobs) ids goal ∧ w.Accepts job id w' ∧
        ((∃ t ∈ w'.store.tasksOf asset.id, t.id = id) ∨
          ∃ e, Next.rest? r = some (.abandon asset job.name (Submission.unrecorded id e))) := by
  by_cases hsubmits : a.submits = true
  · obtain ⟨r₀, hp, hr⟩ := step_cases h
    unfold submits at hsubmits
    split at hsubmits
    · next asset job jobs ids goal =>
      change (submitNext asset job jobs ids goal).run w = (r₀, w') at hp
      unfold submitNext at hp
      rw [Flow.run_attempt_bind] at hp
      generalize hs : (Submission.submitJob asset.id ids job).run w = res at hp
      obtain ⟨r₁, w₁⟩ := res
      cases r₁ with
      | ok id =>
        cases hp
        have hd₁ : w₁.ids.Distinct := hd
        rcases Submission.submitJob_accepts hw hd₁ hs with hc | ⟨id', hacc, ⟨_, ht⟩ | ⟨_, he⟩⟩
        · exact Or.inl hc
        · exact Or.inr ⟨asset, job, jobs, ids, goal, id', rfl, hacc, Or.inl ht⟩
        · cases he
      | error cause =>
        cases hp
        have hd₁ : w₁.ids.Distinct := hd
        rcases Submission.submitJob_accepts hw hd₁ hs with hc | ⟨id', hacc, ⟨he, _⟩ | ⟨e, he⟩⟩
        · exact Or.inl hc
        · cases he
        · cases he
          exact Or.inr ⟨asset, job, jobs, ids, goal, id', rfl, hacc, Or.inr ⟨e, hr⟩⟩
    · cases hsubmits
  · exact Or.inl (a.step_within (R := World.AcceptsNothing) (absurd · hsubmits) w r w' h)

end Activity

namespace Orchestrator

variable {o : Orchestrator} {n : Nat} {asset : Asset} {job : Job} {id : TaskId}

/-- The cluster accepts a job that a piece of work submits for an asset. -/
structure Accepts (o : Orchestrator) (n : Nat) (asset : Asset) (job : Job) (id : TaskId) :
    Prop where
  work : ∃ jobs ids goal, o.workAt n = some (.submit asset (job :: jobs) ids goal)
  accepts : o.world.Accepts job id (o.advance n).world

/-- Nothing but the step of a piece makes the cluster accept a job. -/
theorem handle_accepts (hs : o.Sound) (e : Event) (hd : (o.handle e).world.ids.Distinct) :
    (o.handle e).world.cluster.submitted = o.world.cluster.submitted ∨
      ∃ n asset job id, e = .advance n ∧ o.Accepts n asset job id := by
  have h := o.handle_touches e
  generalize hw' : (o.handle e).world = w' at h hd ⊢
  cases h with
  | @request c _ _ hr =>
    left
    rw [(c.flow_atomic o.world _ w' hr).cluster]
  | @step n a _ _ ha hr =>
    rcases Activity.step_accepts hs.world hd hr with hc | ⟨_, _, _, _, _, id, rfl, hacc, _⟩
    · left
      rw [hc]
    · right
      rw [← hw'] at hacc
      exact ⟨n, _, _, id, rfl, ⟨_, _, _, ha⟩, hacc⟩
  | surround s => exact Or.inl rfl
  | nothing => exact Or.inl rfl

/-- Every job that the cluster knows at the end of a run was accepted from a piece of work. -/
theorem exists_accepts (hs : o.Sound) {es : List Event} (hd : (o.after es).world.ids.Distinct)
    {q : SubmitRequest} (hq : (id, q) ∈ (o.after es).world.cluster.submitted) :
    (id, q) ∈ o.world.cluster.submitted ∨ ∃ es₁ n es₂ asset job,
      es = es₁ ++ .advance n :: es₂ ∧ (o.after es₁).Accepts n asset job id := by
  induction es generalizing o with
  | nil => exact Or.inl hq
  | cons e es ih =>
    rw [after_cons] at hd hq
    have hd' := (after_extends (o.handle e) es).distinct hd
    rcases ih (hs.handle e hd') hd hq with hq | ⟨es₁, n, es₂, asset, job, rfl, hacc⟩
    · rcases handle_accepts hs e hd' with hsame | ⟨n, asset, job, id', rfl, hacc⟩
      · rw [hsame] at hq
        exact Or.inl hq
      · obtain ⟨q', _, hsubmitted⟩ := hacc.accepts
        change (id, q) ∈ (o.advance n).world.cluster.submitted at hq
        rw [hsubmitted, List.mem_append, List.mem_singleton] at hq
        rcases hq with hq | hq
        · exact Or.inl hq
        · cases hq
          exact Or.inr ⟨[], n, es, asset, job, rfl, hacc⟩
    · exact Or.inr ⟨e :: es₁, n, es₂, asset, job, rfl, hacc⟩

/-- The task of an accepted job is there right after, or the next step of the piece names the
job. -/
theorem Accepts.cases (h : o.Accepts n asset job id) (hs : o.Sound)
    (hd : (o.advance n).world.ids.Distinct) :
    (∃ t ∈ (o.advance n).world.store.tasksOf asset.id, t.id = id) ∨
      ∃ e, (o.advance n).workAt n =
        some (.abandon asset job.name (Submission.unrecorded id e)) := by
  obtain ⟨⟨jobs, ids, goal, hwork⟩, q, _, hsubmitted⟩ := h
  have hmore : (o.advance n).world.cluster ≠ o.world.cluster := by
    intro he
    rw [he] at hsubmitted
    exact absurd (congrArg List.length hsubmitted) (by simp)
  rcases advance_self o n with ⟨a, r, ha, hr, hrest, _⟩ | ⟨hworld, _⟩
  · rcases Activity.step_accepts hs.world hd hr with
      hc | ⟨asset', job', _, _, _, id', rfl, hacc, ho⟩
    · exact absurd hc hmore
    · rw [hwork] at ha
      cases ha
      obtain ⟨q', _, hsubmitted'⟩ := hacc
      rw [hsubmitted] at hsubmitted'
      obtain ⟨rfl, _⟩ := Prod.mk.inj (List.singleton_inj.mp (List.append_cancel_left hsubmitted'))
      rw [← hrest] at ho
      exact ho
  · exact absurd (congrArg (·.cluster) hworld) hmore

/-! ## Abandoned pipelines -/

/-- A pending asset fails, with an entry that says why. -/
def FailsWith (o : Orchestrator) (x : AssetId) (entry : LogEntry) (o' : Orchestrator) : Prop :=
  ∃ a b, o.world.store.assets.get? x = some a ∧ a.status = .pending ∧
    o'.world.store.assets.get? x = some b ∧ b.status = .failed ∧ b.log = a.log ++ [entry]

/-- To settle an asset with a failure is to fail it with the entry of the outcome, if it is
pending. -/
theorem failsWith_of_settlement {o' : Orchestrator} {ops : List Store.Operation} (hs : o.Sound)
    (he : o.world.Evolves ops o'.world) (hd : o'.world.ids.Distinct) {x : AssetId}
    {outcome : Outcome} (hfailed : outcome.status = .failed)
    (htold : outcome.redeploysTiles = false) (h : o.world.Settlement x outcome ops) :
    o.FailsWith x outcome.entry o' ∨
      ∀ a, o.world.store.assets.get? x = some a → a.status.isTerminal = true := by
  have hw := hs.world.wellFormed
  cases h with
  | nothing hfinal => exact Or.inr hfinal
  | unserved _ _ _ _ _ hredeploys =>
    rw [htold] at hredeploys
    cases hredeploys
  | @commit a t ha hpending ht hstatus hentry =>
    left
    have hcalm : ∀ op ∈ [Store.Operation.commit a t], op.isRequest = false := by
      simp [Store.Operation.isRequest]
    obtain ⟨b, hb⟩ := he.store.asset_stays hw hcalm ha
    obtain ⟨hcommitted, _⟩ := he.asset_of_some hd hs.world ha hb
    have hx : t.asset = x := ht.asset.trans (hw.asset_id x a ha)
    have happlied : b = t.applyAsset a := by
      rw [hcommitted, ← hx]
      exact Store.only_self t.asset t.applyAsset a
    refine ⟨a, b, ha, hpending, hb, ?_, ?_⟩
    · rw [happlied]
      exact hstatus.trans hfailed
    · rw [happlied, ← hentry]
      rfl

/-- A pipeline that is to be abandoned waits, or ends by failing its asset; if that was removed or
settled before, nothing says why. -/
theorem handle_abandon (hs : o.Sound) (e : Event) (hd : (o.handle e).world.ids.Distinct)
    {job : String} {cause : Error} (hwork : o.workAt n = some (.abandon asset job cause)) :
    (o.handle e).workAt n = some (.abandon asset job cause) ∨
      (e = .advance n ∧ (o.handle e).workAt n = none ∧
        (o.FailsWith asset.id (Activity.abandonedOutcome o.world.now asset job cause).entry
            (o.handle e) ∨
          ∀ a, o.world.store.assets.get? asset.id = some a → a.status.isTerminal = true)) := by
  have hn : n ≠ o.background.started := Nat.ne_of_lt (hs.started n _ hwork)
  obtain ⟨ops, he, hh⟩ := handle_cases hs e hd
  generalize o.handle e = o' at hd he hh
  cases hh with
  | obeyed _ _ hsame | idled _ _ hsame => exact Or.inl ((hsame n).trans hwork)
  | begun _ _ hsame | reported hsame =>
    left
    rw [hsame, if_neg hn, hwork]
  | @stepped m _ _ rest? _ ha hm hsame =>
    by_cases hmn : n = m
    · right
      subst hmn
      rw [hwork] at ha
      cases ha
      cases hm with
      | vanished hcopy hnone =>
        cases hcopy
        refine ⟨rfl, by rw [hsame, if_pos rfl], Or.inr fun a ha => ?_⟩
        rw [hnone] at ha
        cases ha
      | abandoned hsettlement =>
        refine ⟨rfl, by rw [hsame, if_pos rfl], ?_⟩
        exact failsWith_of_settlement hs he hd rfl rfl hsettlement
    · left
      rw [hsame, if_neg hmn, hwork]

/-- A pipeline that is to be abandoned still is, or has ended in one of the steps since. -/
theorem abandon_after (hs : o.Sound) {es : List Event} (hd : (o.after es).world.ids.Distinct)
    {job : String} {cause : Error} (hwork : o.workAt n = some (.abandon asset job cause)) :
    (o.after es).workAt n = some (.abandon asset job cause) ∨ ∃ es₁ es₂,
      es = es₁ ++ .advance n :: es₂ ∧
        (o.after es₁).workAt n = some (.abandon asset job cause) ∧
        ((o.after es₁).advance n).workAt n = none := by
  induction es generalizing o with
  | nil => exact Or.inl hwork
  | cons e es ih =>
    rw [after_cons] at hd
    have hd' := (after_extends (o.handle e) es).distinct hd
    rcases handle_abandon hs e hd' hwork with hstill | ⟨rfl, hended, _⟩
    · rcases ih (hs.handle e hd') hd hstill with hlast | ⟨es₁, es₂, rfl, hstill, hended⟩
      · exact Or.inl hlast
      · exact Or.inr ⟨e :: es₁, es₂, rfl, hstill, hended⟩
    · exact Or.inr ⟨[], es, rfl, hwork, hended⟩

end Orchestrator

/-- An asset that was saved has the number of its tasks. -/
def Asset.Counted (a : Asset) : Prop :=
  a.status = .saved → a.expectedTasks ≠ none

theorem Asset.Counted.decided {a b : Asset} {ts : List Task} (ha : a.Counted)
    (h : a.Decided ts b) : b.Counted := by
  intro hsaved
  cases h with
  | final | waits => exact ha hsaved
  | failed _ _ hstatus =>
    rw [hstatus] at hsaved
    cases hsaved
  | saved _ hn _ _ _ hexpected => simp [hexpected, hn]

theorem Asset.Counted.step {jobs : List Job} {v v' : View} (h : v.asset.Counted)
    (hstage : v.Stage jobs) (hs : v.Steps v') : v'.asset.Counted := by
  cases hs with
  | stays | submitted | refused | counted | uncounted => exact h
  | expected | inspected => exact fun _ hnone => by cases hnone
  | reported _ hd | evaluated hd => exact h.decided hd
  | abandoned hd =>
    cases hd with
    | final => exact h
    | pending _ hstatus =>
      intro hsaved
      exact absurd (hstatus.symm.trans hsaved) (by decide)
  | settled hd =>
    cases hstage with
    | settling _ _ hexpected =>
      intro _
      simp [hd.expectedTasks, hexpected]

namespace Orchestrator

variable {o : Orchestrator} {n : Nat} {asset : Asset} {job : Job} {id : TaskId}
variable {settings : Settings} {now : Timestamp} {ids : IdSupply} {es : List Event}

/-- Every asset of a run that was saved has the number of its tasks. -/
theorem counted_of_run (hd : ((initial settings now ids).after es).world.ids.Distinct) {x : AssetId}
    {b : Asset} (hb : ((initial settings now ids).after es).world.store.assets.get? x = some b) :
    b.Counted := by
  induction es using List.reverseRecOn generalizing b with
  | nil => cases hb
  | append_singleton es e ih =>
    rw [after_concat] at hd hb
    have hd₀ := (handle_extends _ e).distinct hd
    have hs := (initial_sound settings now ids).after hd₀
    cases ha : ((initial settings now ids).after es).world.store.assets.get? x with
    | none =>
      obtain ⟨ops, he, hh⟩ := handle_cases hs e hd
      have hnew := isNew_of_none hs he (hh.settling hs.world.wellFormed) ha hb
      intro hsaved
      rw [hnew.status] at hsaved
      cases hsaved
    | some a =>
      obtain ⟨p, jobs, hstaged⟩ := exists_staged hd₀ ha
      have hv := view?_of_asset ha p
      have hsteps := hstaged.2.1.steps hs e hd hv (view?_of_asset hb p)
      exact (ih hd₀ ha).step (hstaged.2.2 _ hv).1 hsteps

/-- An asset whose pipeline is to be abandoned cannot have been saved. -/
theorem failed_of_abandoning (ho : o = (initial settings now ids).after es)
    (hd : o.world.ids.Distinct) {job : String} {cause : Error}
    (hwork : o.workAt n = some (.abandon asset job cause)) {a : Asset}
    (ha : o.world.store.assets.get? asset.id = some a) (hfinal : a.status.isTerminal = true) :
    a.status = .failed := by
  subst ho
  obtain ⟨p, jobs, _, hwatches, hstage⟩ := exists_staged hd ha
  obtain rfl := hwatches.only n _ hwork rfl
  have hv := view?_of_asset ha n
  rw [workOn_eq_some_iff.mpr ⟨hwork, rfl⟩] at hv
  have hnone : a.expectedTasks = none := by
    have habandoning := (hstage _ hv).1
    generalize Store.tasksOf _ _ = ts at habandoning
    cases habandoning with
    | abandoning _ hexpected => exact hexpected
  cases hstatus : a.status with
  | pending =>
    rw [hstatus] at hfinal
    cases hfinal
  | saved => exact absurd hnone (counted_of_run hd ha hstatus)
  | failed => rfl

/-! ## Fates -/

/-- A job is among the tasks of an asset, or named in a failed entry of the log of the asset. -/
def OnRecord (o : Orchestrator) (x : AssetId) (id : TaskId) : Prop :=
  (∃ t ∈ o.world.store.tasksOf x, t.id = id) ∨
    ∃ a, o.world.store.assets.get? x = some a ∧ ∃ e ∈ a.log, e.Names id

/-- The last step of a piece comes too late: the asset had been removed, or had failed. -/
def Overtaken (o : Orchestrator) (n : Nat) (x : AssetId) (es : List Event) : Prop :=
  ∃ es₁ es₂, es = es₁ ++ .advance n :: es₂ ∧ ((o.after es₁).advance n).workAt n = none ∧
    ∀ a, (o.after es₁).world.store.assets.get? x = some a → a.status = .failed

/-- What has become of a job after some events, which the piece of work of an asset submitted and
the cluster accepted just before. -/
inductive Fate (o : Orchestrator) (n : Nat) (asset : Asset) (id : TaskId) (es : List Event) :
    Prop where
  /-- Its task was recorded at once. -/
  | recorded {t : Task} (ht : t ∈ o.world.store.tasksOf asset.id) (hid : t.id = id)
  /-- It was not recorded, and the piece has a step left to say so. -/
  | underway {job : String} {e : Error}
    (h : (o.after es).workAt n = some (.abandon asset job (Submission.unrecorded id e)))
  /-- It was not recorded, and the last step of the piece failed the asset for this reason. -/
  | named {es₁ es₂ : List Event} {entry : LogEntry} (hes : es = es₁ ++ .advance n :: es₂)
    (hended : ((o.after es₁).advance n).workAt n = none)
    (hfails : (o.after es₁).FailsWith asset.id entry ((o.after es₁).advance n))
    (hnames : entry.Names id)
  /-- It was not recorded, and the last step of the piece could not say so any more. -/
  | overtaken (h : o.Overtaken n asset.id es)

/-- Every job that the cluster accepts is on record by the time its piece of work has ended. -/
def AccountsForJobs (o : Orchestrator) (es : List Event) : Prop :=
  ∀ es₁ n es₂ asset job id, es = es₁ ++ .advance n :: es₂ →
    (o.after es₁).Accepts n asset job id → (o.after es).workAt n = none →
    ∃ es₃, es₃ <+: es₂ ∧ (o.after (es₁ ++ .advance n :: es₃)).OnRecord asset.id id

/-- What is true of the jobs that the cluster accepts in a run. -/
structure AnswersForJobs (o : Orchestrator) (es : List Event) : Prop where
  /-- Every job that the cluster knows was accepted from a piece of work. -/
  accepted : ∀ id q, (id, q) ∈ (o.after es).world.cluster.submitted → ∃ es₁ n es₂ asset job,
    es = es₁ ++ .advance n :: es₂ ∧ (o.after es₁).Accepts n asset job id
  fate : ∀ es₁ n es₂ asset job id, es = es₁ ++ .advance n :: es₂ →
    (o.after es₁).Accepts n asset job id → ((o.after es₁).advance n).Fate n asset id es₂
  /-- If no piece comes too late, all jobs are accounted for. -/
  timely : (∀ es₁ n es₂ asset job id, es = es₁ ++ .advance n :: es₂ →
    (o.after es₁).Accepts n asset job id → ¬ ((o.after es₁).advance n).Overtaken n asset.id es₂) →
      o.AccountsForJobs es

/-- The entry of a job that was not recorded names it. -/
theorem abandonedOutcome_names (time : Timestamp) (asset : Asset) (job : String) (id : TaskId)
    (e : Error) : (Activity.abandonedOutcome time asset job
      (Submission.unrecorded id e)).entry.Names id :=
  ⟨rfl, _, rfl, Submission.text_infix_unrecorded id e⟩

/-- A job whose piece has ended is on record, unless the piece came too late. -/
theorem Fate.onRecord {es : List Event} (h : o.Fate n asset id es)
    (hended : (o.after es).workAt n = none) (htimely : ¬ o.Overtaken n asset.id es) :
    ∃ es₃, es₃ <+: es ∧ (o.after es₃).OnRecord asset.id id := by
  cases h with
  | recorded ht hid => exact ⟨[], List.nil_prefix, Or.inl ⟨_, ht, hid⟩⟩
  | underway h =>
    rw [hended] at h
    cases h
  | @named es₁ es₂ entry hes _ hfails hnames =>
    obtain ⟨a, b, _, _, hb, _, hlog⟩ := hfails
    have hmem : entry ∈ b.log := by simp [hlog]
    refine ⟨es₁ ++ [.advance n], ⟨es₂, by simp [hes]⟩, Or.inr ⟨b, ?_, entry, hmem, hnames⟩⟩
    rw [after_concat]
    exact hb
  | overtaken h => exact absurd h htimely

/-- Every job that the cluster accepts in a run has one of these fates. -/
theorem exists_fate {es₁ es₂ : List Event}
    (hd : ((initial settings now ids).after (es₁ ++ .advance n :: es₂)).world.ids.Distinct)
    (haccepts : ((initial settings now ids).after es₁).Accepts n asset job id) :
    (((initial settings now ids).after es₁).advance n).Fate n asset id es₂ := by
  rw [after_append, after_cons] at hd
  obtain ⟨hs₁, hd', hs₂⟩ := sound_at rfl hd
  rcases haccepts.cases hs₁ hd' with ⟨t, ht, hid⟩ | ⟨e, hwork⟩
  · exact .recorded ht hid
  rcases abandon_after hs₂ hd hwork with hstill | ⟨es₃, es₄, rfl, hstill, hended⟩
  · exact .underway hstill
  obtain ⟨hs₃, hd₃, _⟩ := settles_at hs₂ hd rfl
  rcases handle_abandon hs₃ (.advance n) hd₃ hstill with hwaits | ⟨_, _, hfails | hfinal⟩
  · exact absurd (hended.symm.trans hwaits) (by simp)
  · exact .named rfl hended hfails (abandonedOutcome_names _ asset job.name id e)
  · refine .overtaken ⟨es₃, es₄, rfl, hended, fun a ha => ?_⟩
    -- where the pipeline ended, as a state of the whole run
    have hrun : (((initial settings now ids).after es₁).advance n).after es₃ =
        (initial settings now ids).after (es₁ ++ .advance n :: es₃) := by
      rw [after_append, after_cons]
      rfl
    exact failed_of_abandoning hrun ((handle_extends _ _).distinct hd₃) hstill ha (hfinal a ha)

/-- All jobs that the cluster accepts in a run are accounted for, but for those whose pipeline is
abandoned too late. -/
theorem initial_answersForJobs
    (hd : ((initial settings now ids).after es).world.ids.Distinct) :
    (initial settings now ids).AnswersForJobs es := by
  have hs := initial_sound settings now ids
  constructor
  case accepted =>
    intro id q hq
    rcases exists_accepts hs hd hq with hq | haccepted
    · cases hq
    · exact haccepted
  case fate =>
    rintro es₁ n es₂ asset job id rfl haccepts
    exact exists_fate hd haccepts
  case timely =>
    rintro htimely es₁ n es₂ asset job id rfl haccepts hended
    have hfate := exists_fate hd haccepts
    rw [after_append, after_cons] at hended
    obtain ⟨es₃, hprefix, hrecord⟩ :=
      hfate.onRecord hended (htimely es₁ n es₂ asset job id rfl haccepts)
    refine ⟨es₃, hprefix, ?_⟩
    rw [after_append, after_cons]
    exact hrecord

/-! ## Runs -/

namespace Sample

/-- As before, but a number of attempts to record a task are going to fail. -/
def taskWritesFail (count : Nat) : Event :=
  .surround {
    now := ⟨0, 0⟩
    services := {}
    refused := []
    histories := {}
    rejectedTaskWrites := count }

/-- The first job of one table is not recorded. The first job of another one is, and fails; then the
second one is not recorded. -/
def tablesAbandoned : List Event :=
  datasetFiled ++ [.command createTable, .command createLatest, taskWritesFail 3, .advance 0,
    .advance 0, .advance 1] ++ delivered 2 1 .failed ++ [taskWritesFail 3, .advance 1, .advance 1]

end Sample

set_option maxRecDepth 100000 in
theorem tablesAbandoned_answersForJobs : ∃ es, es = Sample.tablesAbandoned ∧
    (Sample.start.after es).world.ids.Distinct ∧
      (Sample.start.after es).world.cluster.submitted.map (·.1) = [0, 1, 2].map Sample.ids.task ∧
      (Sample.start.after es).world.store.tasks.keys = [Sample.ids.task 1] ∧
      (Sample.start.after es).world.store.assets.values.map (fun a => (a.status, a.log.length)) =
        [(.failed, 1), (.failed, 1)] ∧
      Sample.start.AnswersForJobs es := by
  refine ⟨_, rfl, ?_⟩
  have hd : (Sample.start.after Sample.tablesAbandoned).world.ids.Distinct := by decide +kernel
  refine ⟨hd, ?_, ?_, ?_, initial_answersForJobs hd⟩
  · decide +kernel
  · decide +kernel
  · decide +kernel

/-! ## Jobs that nothing tells of -/

/-- There are no tasks, and nothing is noted about assets. -/
structure Silent (o : Orchestrator) : Prop where
  tasks : o.world.store.tasks.keys = []
  logs : ∀ a ∈ o.world.store.assets.values, a.log = []

instance (o : Orchestrator) : Decidable o.Silent :=
  decidable_of_iff
    (o.world.store.tasks.keys = [] ∧ ∀ a ∈ o.world.store.assets.values, a.log = [])
    ⟨fun h => ⟨h.1, h.2⟩, fun h => ⟨h.1, h.2⟩⟩

theorem Silent.not_onRecord {o : Orchestrator} (h : o.Silent) (hs : o.Sound) (x : AssetId)
    (id : TaskId) : ¬ o.OnRecord x id := by
  rintro (⟨t, ht, _⟩ | ⟨a, ha, e, he, _⟩)
  · have hstored := (hs.world.wellFormed.mem_tasksOf_iff.mp ht).1
    have hkey := Directory.mem_keys_iff_get?.mpr ⟨t, hstored⟩
    rw [h.tasks] at hkey
    cases hkey
  · rw [h.logs a (Directory.mem_values_of_get? ha)] at he
    cases he

namespace Sample

/-- A version is deleted before the pipeline of its table begins. The pipeline begins nevertheless,
and the cluster accepts its first job. -/
def tableDeleted : List Event :=
  datasetFiled ++ [.command createTable, .command (.deleteVersion ⟨"d", "v1"⟩), .advance 0,
    .advance 0] ++ List.replicate 5 (.advance 1)

end Sample

set_option maxRecDepth 100000 in
theorem tableDeleted_not_accountsForJobs : ∃ es, es = Sample.tableDeleted ∧
    (Sample.start.after es).world.ids.Distinct ∧ ¬ Sample.start.AccountsForJobs es := by
  refine ⟨_, rfl, ?_⟩
  have hs : Sample.start.Sound := initial_sound _ _ _
  have hd : (Sample.start.after Sample.tableDeleted).world.ids.Distinct := by decide +kernel
  refine ⟨hd, fun h => ?_⟩
  have hknown : ((Sample.start.after Sample.tableDeleted).world.cluster.submitted.map (·.1)) =
      [Sample.ids.task 0] := by decide +kernel
  have hended : (Sample.start.after Sample.tableDeleted).background.pieces.keys = [] := by
    decide +kernel
  have hsilent : ∀ es ∈ Sample.tableDeleted.inits, (Sample.start.after es).Silent := by
    decide +kernel
  obtain ⟨⟨id, q⟩, hq, _⟩ := List.mem_map.mp (hknown ▸ List.mem_singleton_self (Sample.ids.task 0))
  rcases exists_accepts hs hd hq with hq | ⟨es₁, n, es₂, asset, job, hes, haccepts⟩
  · cases hq
  have hnone : (Sample.start.after Sample.tableDeleted).workAt n = none := by
    cases hp : (Sample.start.after Sample.tableDeleted).background.pieces.get? n with
    | none => simp [workAt, hp]
    | some piece =>
      have hkey := Directory.mem_keys_iff_get?.mpr ⟨piece, hp⟩
      rw [hended] at hkey
      cases hkey
  obtain ⟨es₃, ⟨es₄, rfl⟩, hrecord⟩ := h es₁ n es₂ asset job id hes haccepts hnone
  -- nothing is on record in the states on the way, of which this is one
  have hrun : Sample.tableDeleted = (es₁ ++ .advance n :: es₃) ++ es₄ := by simp [hes]
  have hprefix : es₁ ++ .advance n :: es₃ <+: Sample.tableDeleted := ⟨es₄, hrun.symm⟩
  have hd₁ : (Sample.start.after (es₁ ++ .advance n :: es₃)).world.ids.Distinct := by
    rw [hrun, after_append] at hd
    exact (after_extends _ es₄).distinct hd
  have hquiet := hsilent _ ((List.mem_inits _ _).mpr hprefix)
  exact hquiet.not_onRecord (hs.after hd₁) _ _ hrecord

end Orchestrator

end GeoAssets
