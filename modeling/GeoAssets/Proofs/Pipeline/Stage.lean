import GeoAssets.Proofs.Compute.Graph
import GeoAssets.Proofs.Pipeline.View

/-!
# The stages of a pipeline

What is seen of an asset is always at one of a few stages (`View.Stage`): jobs are submitted and
their tasks are recorded in order; then the number of tasks is set to the number of jobs; then the
tasks decide. A pipeline that ended leaves the asset pending only if a task is open. Steps lead from
stage to stage (`View.Stage.step`), so every stored asset of a run is at a stage.
-/

namespace GeoAssets

/-! ## Tasks of jobs -/

/-- The task was recorded when the job was submitted. -/
def Task.IsFor (t : Task) (j : Job) : Prop :=
  ∃ time, [.note time .pending ("Scheduled job " ++ j.name)] <+: t.log

/-- The tasks of some jobs, in the order of the jobs. -/
def Records (jobs : List Job) (ts : List Task) : Prop :=
  List.Forall₂ (fun j t => t.IsFor j) jobs ts

theorem Task.report_becomes (id : TaskId) (e : LogEntry) (t : Task) :
    t.Becomes (t.report id e) :=
  Store.Performs.becomes_onTask (.appendTaskLog id e) t.id t

theorem Task.IsFor.becomes {t u : Task} {j : Job} (h : t.IsFor j) (hu : t.Becomes u) :
    u.IsFor j := by
  obtain ⟨time, hlog⟩ := h
  exact ⟨time, hlog.trans hu.log⟩

theorem Submission.newTask_isFor (time : Timestamp) (x : AssetId) (id : TaskId) (j : Job) :
    (newTask time x id j).IsFor j :=
  ⟨time, List.prefix_refl _⟩

theorem Submission.newTask_progress (time : Timestamp) (x : AssetId) (id : TaskId) (j : Job) :
    (newTask time x id j).progress = .pending := rfl

theorem Records.report {jobs : List Job} {ts : List Task} (h : Records jobs ts) (id : TaskId)
    (e : LogEntry) : Records jobs (ts.map (Task.report id e)) := by
  induction h with
  | nil => exact .nil
  | cons hj _ ih => exact .cons (hj.becomes (Task.report_becomes id e _)) ih

theorem Records.concat {jobs : List Job} {ts : List Task} (h : Records jobs ts) {j : Job} {t : Task}
    (ht : t.IsFor j) : Records (jobs ++ [j]) (ts ++ [t]) := by
  induction h with
  | nil => exact .cons ht .nil
  | cons hj _ ih => exact .cons hj ih

/-! ## Stages -/

/-- The stages of a pipeline with the given jobs. -/
inductive View.Stage (jobs : List Job) : View → Prop where
  | submitting {a c : Asset} {ts : List Task} {done rest : List Job} {ids : Directory String TaskId}
    {goal : Goal} (hjobs : done ++ rest = jobs) (hrec : Records done ts)
    (hids : ids.keys = done.map (·.name)) (hexpected : a.expectedTasks = none) :
    Stage jobs ⟨a, ts, some (.submit c rest ids (some goal))⟩
  | abandoning {a c : Asset} {ts : List Task} {job : String} {cause : Error}
    (hfew : ts.length < jobs.length) (hexpected : a.expectedTasks = none) :
    Stage jobs ⟨a, ts, some (.abandon c job cause)⟩
  /-- A job could not be submitted. -/
  | abandoned {a : Asset} {ts : List Task} (hfew : ts.length < jobs.length)
    (hfinal : a.status.isTerminal = true) (hexpected : a.expectedTasks = none) :
    Stage jobs ⟨a, ts, none⟩
  /-- There are more jobs than can be counted, as in no graph that can be kept (`JobGraph`). -/
  | uncounted {a : Asset} {ts : List Task} (hmany : UInt32.size ≤ jobs.length)
    (hexpected : a.expectedTasks = none) : Stage jobs ⟨a, ts, none⟩
  | expecting {a c : Asset} {ts : List Task} {count : UInt32} {goal : Goal}
    (hrec : Records jobs ts) (hcount : count.toNat = jobs.length)
    (hexpected : a.expectedTasks = none) : Stage jobs ⟨a, ts, some (.expect c count goal)⟩
  | evaluating {a : Asset} {x : AssetId} {ts : List Task} {count : UInt32} {goal : Goal}
    (hrec : Records jobs ts) (hcount : count.toNat = jobs.length)
    (hexpected : a.expectedTasks = some count) : Stage jobs ⟨a, ts, some (.evaluate x goal)⟩
  | inspecting {a c : Asset} {goal : Goal} (hjobs : jobs = [])
    (hexpected : a.expectedTasks = none) : Stage jobs ⟨a, [], some (.inspect c goal)⟩
  | settling {a c : Asset} {o : Outcome} {goal : Goal} (hjobs : jobs = [])
    (hfinal : o.status.isTerminal = true) (hexpected : a.expectedTasks = some 0) :
    Stage jobs ⟨a, [], some (.settle c o goal)⟩
  /-- The tasks have decided, or one of them is open. -/
  | decided {a : Asset} {ts : List Task} {count : UInt32} (hrec : Records jobs ts)
    (hcount : count.toNat = jobs.length) (hexpected : a.expectedTasks = some count)
    (hopen : a.status = .pending → ∃ t ∈ ts, t.progress = .pending) : Stage jobs ⟨a, ts, none⟩

/-! ## Decisions -/

theorem Asset.Settled.isTerminal {a b : Asset} {s : Status} (h : a.Settled s b)
    (hs : s.isTerminal = true) : b.status.isTerminal = true := by
  cases h with
  | final h => exact h
  | pending _ hstatus => rw [hstatus, hs]

theorem Asset.Settled.expectedTasks {a b : Asset} {s : Status} (h : a.Settled s b) :
    b.expectedTasks = a.expectedTasks := by
  cases h with
  | final => rfl
  | pending _ _ hexpected => exact hexpected

namespace Asset.Decided

variable {a b : Asset} {ts : List Task}

theorem expectedTasks (h : a.Decided ts b) : b.expectedTasks = a.expectedTasks := by
  cases h with
  | final | waits => rfl
  | failed _ _ _ hexpected | saved _ _ _ _ _ hexpected => exact hexpected

theorem isTerminal (h : a.Decided ts b) (ha : a.status.isTerminal = true) :
    b.status.isTerminal = true := by
  have hne : a.status ≠ .pending := by
    intro hp
    rw [hp] at ha
    cases ha
  cases h with
  | final => exact ha
  | waits hp | failed hp | saved hp => exact absurd hp hne

/-- If all tasks are there, the asset stays pending only for the sake of an open task. -/
theorem exists_open (h : a.Decided ts b) {count : UInt32} (hexpected : a.expectedTasks = some count)
    (hlength : count.toNat = ts.length) (hb : b.status = .pending) :
    ∃ t ∈ ts, t.progress = .pending := by
  cases h with
  | final h =>
    rw [hb] at h
    cases h
  | failed _ _ hstatus | saved _ _ _ _ hstatus =>
    rw [hstatus] at hb
    cases hb
  | waits _ _ hopen =>
    refine hopen count hexpected ?_
    have hlt := count.toNat_lt_size
    unfold Decision.isComplete
    rw [decide_eq_true_eq]
    omega

end Asset.Decided

/-! ## From stage to stage -/

namespace View

variable {jobs : List Job} {v v' : View}

theorem Stage.reported {a b : Asset} {ts : List Task} {work : Option Activity} {id : TaskId}
    {e : LogEntry} (h : Stage jobs ⟨a, ts, work⟩) (ht : ∃ t ∈ ts, t.id = id)
    (hd : a.Decided (ts.map (Task.report id e)) b) :
    Stage jobs ⟨b, ts.map (Task.report id e), work⟩ := by
  have hexp := hd.expectedTasks
  cases h with
  | submitting hjobs hrec hids hexpected =>
    exact .submitting hjobs (hrec.report id e) hids (hexp.trans hexpected)
  | abandoning hfew hexpected =>
    exact .abandoning (by rwa [List.length_map]) (hexp.trans hexpected)
  | abandoned hfew hfinal hexpected =>
    exact .abandoned (by rwa [List.length_map]) (hd.isTerminal hfinal) (hexp.trans hexpected)
  | uncounted hmany hexpected => exact .uncounted hmany (hexp.trans hexpected)
  | expecting hrec hcount hexpected =>
    exact .expecting (hrec.report id e) hcount (hexp.trans hexpected)
  | evaluating hrec hcount hexpected =>
    exact .evaluating (hrec.report id e) hcount (hexp.trans hexpected)
  | inspecting | settling =>
    -- there is no task that could be reported
    obtain ⟨t, ht, _⟩ := ht
    cases ht
  | decided hrec hcount hexpected =>
    refine .decided (hrec.report id e) hcount (hexp.trans hexpected) ?_
    exact hd.exists_open hexpected (hcount.trans (hrec.report id e).length_eq)

/-- Steps lead from stage to stage. -/
theorem Stage.step (hnames : (jobs.map (·.name)).Nodup) (h : v.Stage jobs) (hs : v.Steps v') :
    v'.Stage jobs := by
  cases hs with
  | stays => exact h
  | reported ht hd => exact h.reported ht hd
  | @submitted _ _ ts job rest ids goal now id =>
    cases h with
    | @submitting _ _ _ done _ _ _ hjobs hrec hids hexpected =>
      have hjobs' : (done ++ [job]) ++ rest = jobs := by
        rw [List.append_assoc]
        exact hjobs
      refine .submitting hjobs' ?_ ?_ hexpected
      · exact hrec.concat (Submission.newTask_isFor _ _ _ _)
      · -- the name is new, for no two jobs have one name
        have hnone : ids.get? job.name = none := by
          cases hget : ids.get? job.name with
          | none => rfl
          | some i =>
            have hmem : job.name ∈ done.map (·.name) := by
              rw [← hids]
              exact Directory.mem_keys_iff_get?.mpr ⟨i, hget⟩
            rw [← hjobs, List.map_append, List.map_cons, List.nodup_append] at hnames
            exact absurd rfl (hnames.2.2 _ hmem _ List.mem_cons_self)
        rw [Directory.keys_insert_of_none hnone, hids, List.map_append]
        rfl
  | refused =>
    cases h with
    | submitting hjobs hrec _ hexpected =>
      refine .abandoning ?_ hexpected
      rw [← hjobs, List.length_append, List.length_cons, ← hrec.length_eq]
      omega
  | @counted _ _ _ ids _ hsize =>
    cases h with
    | submitting hjobs hrec hids hexpected =>
      rw [List.append_nil] at hjobs
      subst hjobs
      refine .expecting hrec ?_ hexpected
      rw [UInt32.toNat_ofNat_of_lt' hsize, ← Directory.length_keys, hids, List.length_map]
  | uncounted hmany =>
    cases h with
    | @submitting _ _ _ done _ ids _ hjobs hrec hids hexpected =>
      rw [List.append_nil] at hjobs
      subst hjobs
      -- a pipeline has a goal, so only the number of jobs can be the reason
      rcases hmany with hmany | hmany
      · cases hmany
      · refine .uncounted ?_ hexpected
        rw [← Directory.length_keys, hids, List.length_map] at hmany
        exact hmany
  | abandoned hd =>
    cases h with
    | abandoning hfew hexpected =>
      exact .abandoned hfew (hd.isTerminal rfl) (hd.expectedTasks.trans hexpected)
  | expected =>
    cases h with
    | expecting hrec hcount => exact .evaluating hrec hcount rfl
  | evaluated hd =>
    cases h with
    | evaluating hrec hcount hexpected =>
      refine .decided hrec hcount (hd.expectedTasks.trans hexpected) ?_
      exact hd.exists_open hexpected (hcount.trans hrec.length_eq)
  | inspected hfinal =>
    cases h with
    | inspecting hjobs => exact .settling hjobs hfinal rfl
  | settled hd =>
    cases h with
    | settling hjobs hfinal hexpected =>
      subst hjobs
      refine .decided .nil rfl (hd.expectedTasks.trans hexpected) ?_
      intro hpending
      have hterminal := hd.isTerminal hfinal
      rw [hpending] at hterminal
      cases hterminal

end View

end GeoAssets
