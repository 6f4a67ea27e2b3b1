import GeoAssets.Proofs.Pipeline.Watched
import GeoAssets.Proofs.Run.Settled

/-!
# Pipelines complete

An asset with jobs is saved only in a step at which the tasks of all its jobs are there and have
succeeded; and once its pipeline has ended it is pending only as long as a task is open. Reports may
come at any time: before the number of tasks is set, between that and the evaluation, or later.
-/

namespace GeoAssets

/-- How tasks settle an asset, if all are there once their number is set. -/
theorem Asset.Decided.settles {a b : Asset} {jobs : List Job} {ts : List Task}
    (hd : a.Decided ts b) (hrec : ∀ n, a.expectedTasks = some n → Records jobs ts)
    (ha : a.status = .pending) (hb : b.status.isTerminal = true) :
    (b.status = .saved ∧ Records jobs ts ∧ ∀ t ∈ ts, t.progress = .success) ∨
      (b.status = .failed ∧ ∃ t ∈ ts, t.progress = .failed) := by
  cases hd with
  | final hfinal =>
    rw [ha] at hfinal
    cases hfinal
  | failed _ hfailed hstatus => exact Or.inr ⟨hstatus, hfailed⟩
  | saved _ hn _ hall hstatus => exact Or.inl ⟨hstatus, hrec _ hn, hall⟩
  | waits =>
    rw [ha] at hb
    cases hb

namespace View

variable {jobs : List Job} {v v' : View}

/-- Once the number of tasks is set, it is the number of jobs, and the tasks of all jobs are
there. -/
theorem Stage.of_expected (h : v.Stage jobs) {n : UInt32} (hn : v.asset.expectedTasks = some n) :
    n.toNat = jobs.length ∧ Records jobs v.tasks := by
  have hset : ∀ {a : Asset} {e : Option UInt32}, a.expectedTasks = e → a.expectedTasks = some n →
      e = some n := fun he hn => he.symm.trans hn
  cases h with
  | submitting _ _ _ hexpected | abandoning _ hexpected | abandoned _ _ hexpected
  | uncounted _ hexpected | expecting _ _ hexpected | inspecting _ hexpected =>
    cases hset hexpected hn
  | settling hjobs _ hexpected =>
    cases hset hexpected hn
    rw [hjobs]
    exact ⟨rfl, .nil⟩
  | evaluating hrec hcount hexpected | decided hrec hcount hexpected =>
    cases hset hexpected hn
    exact ⟨hcount, hrec⟩

/-- How an asset with jobs is settled: it is saved when the tasks of all jobs have succeeded, and it
fails if a task has failed or a job could not be submitted. -/
theorem Steps.settles_cases (hs : v.Steps v') (h : v.Stage jobs) (hjobs : jobs ≠ [])
    (ha : v.asset.status = .pending) (hb : v'.asset.status.isTerminal = true) :
    (v'.asset.status = .saved ∧ Records jobs v'.tasks ∧ ∀ t ∈ v'.tasks, t.progress = .success) ∨
      (v'.asset.status = .failed ∧ ∃ t ∈ v'.tasks, t.progress = .failed) ∨
      (v'.asset.status = .failed ∧ v'.work = none ∧ v'.asset.expectedTasks = none) := by
  cases hs with
  | stays | submitted | refused | counted | uncounted | expected | inspected =>
    change Status.isTerminal _ = true at hb
    change _ = Status.pending at ha
    rw [ha] at hb
    cases hb
  | reported ht hd =>
    rcases hd.settles (fun n hn => (h.of_expected hn).2.report _ _) ha hb with hsaved | hfailed
    · exact Or.inl hsaved
    · exact Or.inr (Or.inl hfailed)
  | evaluated hd =>
    rcases hd.settles (fun n hn => (h.of_expected hn).2) ha hb with hsaved | hfailed
    · exact Or.inl hsaved
    · exact Or.inr (Or.inl hfailed)
  | abandoned hd =>
    cases h with
    | abandoning _ hexpected =>
      refine Or.inr (Or.inr ⟨?_, rfl, hd.expectedTasks.trans hexpected⟩)
      cases hd with
      | final hfinal =>
        change _ = Status.pending at ha
        rw [ha] at hfinal
        cases hfinal
      | pending _ hstatus => exact hstatus
  | settled =>
    cases h with
    | settling h => exact absurd h hjobs

end View

namespace Orchestrator

variable {o : Orchestrator} {x : AssetId} {p : Nat} {jobs : List Job}

/-- What an event does to what is seen of an asset, at some point of a run. -/
theorem Staged.steps_at (h : o.Staged x p jobs) (hs : o.Sound) {c : Asset}
    (hc : o.world.store.assets.get? x = some c) {es es₁ es₂ : List Event} {e : Event}
    (hd : (o.after es).world.ids.Distinct) (hes : es = es₁ ++ e :: es₂) {a b : Asset}
    (ha : (o.after es₁).world.store.assets.get? x = some a)
    (hb : (o.after (es₁ ++ [e])).world.store.assets.get? x = some b) :
    ∃ v v' : View, v.asset = a ∧ v.Stage jobs ∧ v.Steps v' ∧ v'.asset = b ∧
      v'.tasks = (o.after (es₁ ++ [e])).world.store.tasksOf x ∧
      v'.work = (o.after (es₁ ++ [e])).workOn x p := by
  obtain ⟨hs₁, hd₁, _⟩ := settles_at hs hd hes
  have hd₀ := ((o.after es₁).handle_extends e).distinct hd₁
  have hstaged := h.after hs hc hd₀
  have hv := view?_of_asset ha p
  have hv' := view?_of_asset hb p
  rw [after_concat] at hv'
  refine ⟨_, _, rfl, (hstaged.2.2 _ hv).1, hstaged.2.1.steps hs₁ e hd₁ hv hv', rfl, ?_, ?_⟩
  · rw [after_concat]
  · rw [after_concat]

/-- A pipeline completes neither too early nor never. -/
structure Completes (o : Orchestrator) (x : AssetId) (p : Nat) (g : JobGraph) (es : List Event) :
    Prop where
  /-- In the step that saves the asset, the tasks of all jobs are there and have succeeded. -/
  saved : ∀ es₁ e es₂ a b, es = es₁ ++ e :: es₂ →
    (o.after es₁).world.store.assets.get? x = some a → a.status = .pending →
    (o.after (es₁ ++ [e])).world.store.assets.get? x = some b → b.status = .saved →
    Records g.order ((o.after (es₁ ++ [e])).world.store.tasksOf x) ∧
      ((o.after (es₁ ++ [e])).world.store.tasksOf x).length = g.size ∧
      ∀ t ∈ (o.after (es₁ ++ [e])).world.store.tasksOf x, t.progress = .success
  /-- Once the pipeline has ended, a pending asset has an open task and no failed one. The
  bound leaves out no graph (`JobGraph`). -/
  pending : (o.after es).workAt p = none → g.size < UInt32.size →
    ∀ a, (o.after es).world.store.assets.get? x = some a → a.status = .pending →
    (∀ t ∈ (o.after es).world.store.tasksOf x, t.progress ≠ .failed) ∧
      ∃ t ∈ (o.after es).world.store.tasksOf x, t.progress = .pending

/-- The pipeline of a request with jobs completes, whatever happens meanwhile. -/
theorem pipeline_completes {settings : Settings} {now : Timestamp} {ids : IdSupply}
    {es es' : List Event} {c : Command} {a : Asset} {g : JobGraph}
    (ho : o = (initial settings now ids).after es)
    (hanswer : (o.request c.flow).1 = .ok (some (.pipeline a g))) (hjobs : g.isEmpty = false)
    (hd : ((o.handle (.command c)).after es').world.ids.Distinct) :
    (o.handle (.command c)).Completes a.id o.background.started g es' := by
  obtain ⟨hs, hd', hs'⟩ := sound_at ho hd
  obtain ⟨_, hstaged, hv⟩ := staged_of_answer hs hanswer hd'
  have hfiled := (view?_eq_some_iff.mp hv).1
  have hne := g.order_ne_nil hjobs
  constructor
  case saved =>
    intro es₁ e es₂ b b' hes hb hpending hb' hsaved
    obtain ⟨v, v', rfl, hstage, hsteps, rfl, htasks, _⟩ :=
      hstaged.steps_at hs' hfiled hd hes hb hb'
    have hfinal : v'.asset.status.isTerminal = true := by
      rw [hsaved]
      rfl
    rw [← htasks]
    rcases hsteps.settles_cases hstage hne hpending hfinal with
      ⟨_, hrec, hall⟩ | ⟨hfailed, _⟩ | ⟨hfailed, _⟩
    · exact ⟨hrec, hrec.length_eq.symm.trans g.length_order, hall⟩
    · rw [hsaved] at hfailed
      cases hfailed
    · rw [hsaved] at hfailed
      cases hfailed
  case pending =>
    intro hended hsize b hb hpending
    have hview := view?_of_asset hb o.background.started
    obtain ⟨hstage, hcalm⟩ := (hstaged.after hs' hfiled hd).2.2 _ hview
    refine ⟨hcalm hpending, ?_⟩
    rw [workOn_of_ended hended] at hstage
    generalize ((o.handle (.command c)).after es').world.store.tasksOf a.id = ts at hstage ⊢
    cases hstage with
    | abandoned _ hfinal =>
      rw [hpending] at hfinal
      cases hfinal
    | uncounted hmany =>
      rw [g.length_order] at hmany
      omega
    | decided _ _ _ hopen => exact hopen hpending

set_option maxRecDepth 100000 in
/-- The pipeline of the table ends, and the table is saved. -/
theorem createTable_completes : ∃ o a g, o = Sample.start.after Sample.datasetFiled ∧
    (o.request Sample.createTable.flow).1 = .ok (some (.pipeline a g)) ∧ g.isEmpty = false ∧
      ((o.handle (.command Sample.createTable)).after Sample.tableSaved).world.ids.Distinct ∧
      (o.handle (.command Sample.createTable)).Completes a.id o.background.started g
        Sample.tableSaved ∧
      ((o.handle (.command Sample.createTable)).after Sample.tableSaved).workAt
        o.background.started = none ∧
      (((o.handle (.command Sample.createTable)).after
        Sample.tableSaved).world.store.assets.get? a.id).map (·.status) = some .saved := by
  have hd : (((Sample.start.after Sample.datasetFiled).handle (.command Sample.createTable)).after
      Sample.tableSaved).world.ids.Distinct := by decide +kernel
  have hd' := (after_extends _ Sample.tableSaved).distinct hd
  have hs : (Sample.start.after Sample.datasetFiled).Sound :=
    (initial_sound _ _ _).after ((handle_extends _ _).distinct hd')
  obtain ⟨a, g, hanswer, hjobs, _⟩ := exists_answer (n := 3) hs hd' (by decide +kernel)
  -- the table is the only asset that is filed
  obtain ⟨_, _, hv⟩ := staged_of_answer hs hanswer hd'
  have hid : a.id ∈ [Sample.ids.asset 0] := by
    have hkeys : ((Sample.start.after Sample.datasetFiled).handle
      (.command Sample.createTable)).world.store.assets.keys = [Sample.ids.asset 0] := by
      decide +kernel
    rw [← hkeys]
    exact Directory.mem_keys_iff_get?.mpr ⟨a, (view?_eq_some_iff.mp hv).1⟩
  rw [List.mem_singleton] at hid
  refine ⟨_, a, g, rfl, hanswer, hjobs, hd, pipeline_completes rfl hanswer hjobs hd, ?_, ?_⟩
  · exact Option.isNone_iff_eq_none.mp (by decide +kernel)
  · rw [hid]
    decide +kernel

end Orchestrator

end GeoAssets
