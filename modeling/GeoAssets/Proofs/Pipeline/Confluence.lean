import GeoAssets.Proofs.Pipeline.Reports

/-!
# The order of reports does not matter

When every task of an asset has been reported once, the reports tell the statuses of the asset, of
its tasks, and of its version if the asset is the default one. It does not matter in which order the
reports came, nor whether they came before or after the steps of the pipeline: two runs with the
same reports end with the same statuses (`reports_confluent`).
-/

namespace GeoAssets

/-- The status that the reports of all tasks of an asset give to it. -/
def Progress.conclusion (verdicts : List Progress) : Status :=
  if .failed ∈ verdicts then .failed else .saved

/-- The statuses of an asset and of what belongs to it. -/
structure Statuses where
  asset : Status
  /-- The status of the version, if the asset is its default one. -/
  version? : Option Status
  tasks : List Progress
  deriving DecidableEq, Repr

namespace Orchestrator

variable {o : Orchestrator} {x : AssetId} {p : Nat} {verdicts : List Progress} {es : List Event}

def statuses? (o : Orchestrator) (x : AssetId) : Option Statuses :=
  (o.world.store.assets.get? x).map fun a =>
    { asset := a.status
      version? := if a.isDefault then (o.world.store.versions.get? a.key).map (·.status) else none
      tasks := (o.world.store.tasksOf x).map (·.progress) }

/-- A run to the end of a pipeline in which every task of the asset is reported once, after it was
recorded. -/
structure Delivers (o : Orchestrator) (x : AssetId) (p : Nat) (verdicts : List Progress)
    (es : List Event) : Prop where
  stored : ((o.after es).world.store.assets.get? x).isSome = true
  ended : (o.after es).workAt p = none
  /-- What is reported of the tasks, in the order of the tasks. -/
  reports : ((o.after es).world.store.tasksOf x).map
    (fun t => (reportsOf t.id es).map (·.progress)) = verdicts.map fun p => [p]
  awaits : o.Awaits x (((o.after es).world.store.tasksOf x).map (·.id)) es
  /-- No report is under way at first. -/
  fresh : ∀ t ∈ (o.after es).world.store.tasksOf x, t.id ∉ o.underway
  /-- No report is under way in the end. -/
  done : ∀ t ∈ (o.after es).world.store.tasksOf x, t.id ∉ (o.after es).underway

namespace Delivers

/-! ## Tasks -/

/-- The one report of a task. -/
theorem exists_report (h : o.Delivers x p verdicts es) {t : Task}
    (ht : t ∈ (o.after es).world.store.tasksOf x) :
    ∃ e, reportsOf t.id es = [e] ∧ e.progress ∈ verdicts := by
  have hmem : (reportsOf t.id es).map (·.progress) ∈ verdicts.map fun p => [p] := by
    rw [← h.reports]
    exact List.mem_map_of_mem ht
  obtain ⟨q, hq, heq⟩ := List.mem_map.mp hmem
  obtain ⟨e, he, rfl⟩ := List.map_eq_singleton_iff.mp heq.symm
  exact ⟨e, he, hq⟩

section

/-! At first the asset is there without tasks. All reports are final. -/

variable {a : Asset} {es₁ es₂ : List Event} {t u : Task} (h : o.Delivers x p verdicts es)
  (hs : o.Sound) (hd : (o.after es).world.ids.Distinct)
  (ha : o.world.store.assets.get? x = some a) (hempty : o.world.store.tasksOf x = [])
  (hfinal : ∀ q ∈ verdicts, q.isTerminal = true)

include h hs hd ha hempty hfinal

/-- Where the report of a task is in the middle of the run. -/
theorem reporting (hes : es = es₁ ++ es₂) (ht : t ∈ (o.after es).world.store.tasksOf x) :
    (o.after es₁).Reporting x t.id (reportsOf t.id es₁) := by
  obtain ⟨b, hb⟩ := Option.isSome_iff_exists.mp h.stored
  obtain ⟨e, he, hverdict⟩ := h.exists_report ht
  have hstart : o.Reporting x t.id [] := by
    refine .none (fun n e' he' => ?_) fun v hv => ?_
    · exact h.fresh t ht (mem_underway_of_reportAt hs he')
    · rw [hempty] at hv
      cases hv
  -- the ids stay those of the tasks in the end, while the run is cut
  have hawaits := h.awaits
  have hk := List.mem_map_of_mem (f := fun t : Task => t.id) ht
  generalize ((o.after es).world.store.tasksOf x).map (·.id) = ids at hawaits hk
  rw [hes, after_append] at hd hb
  have hd₁ := (after_extends (o.after es₁) es₂).distinct hd
  have hdrawn := (after_extends o es₁).hasDrawnAsset (hs.world.asset x a ha)
  obtain ⟨c, hc⟩ := exists_of_after (hs.after hd₁) hd hdrawn hb
  rw [hes] at hawaits
  rw [hes, reportsOf_append] at he
  refine hstart.after hs hd₁ ha hc hk hawaits.of_append ?_ ?_
  · have hlength := congrArg List.length he
    rw [List.length_append, List.length_singleton] at hlength
    rw [List.nil_append]
    omega
  · intro e' he'
    have hmem := List.mem_append_left (reportsOf t.id es₂) he'
    rw [he, List.mem_singleton] at hmem
    rw [hmem]
    exact hfinal _ hverdict

/-- In the end a task says what was reported of it. -/
theorem progress (ht : t ∈ (o.after es).world.store.tasksOf x) :
    (reportsOf t.id es).map (·.progress) = [t.progress] := by
  have hreporting := h.reporting hs hd ha hempty hfinal (List.append_nil es).symm ht
  obtain ⟨e, he, _⟩ := h.exists_report ht
  rw [he] at hreporting ⊢
  cases hreporting with
  | underway _ _ hn => exact absurd (mem_underway_of_reportAt (hs.after hd) hn) (h.done t ht)
  | recorded _ _ hlog =>
    rw [hlog t ht rfl]
    rfl

theorem tasks : ((o.after es).world.store.tasksOf x).map (·.progress) = verdicts := by
  have hsingle : Function.Injective fun p : Progress => [p] :=
    fun _ _ h => List.head_eq_of_cons_eq h
  refine List.map_injective_iff.mpr hsingle ?_
  rw [← h.reports, List.map_map]
  refine List.map_congr_left fun t ht => ?_
  exact (h.progress hs hd ha hempty hfinal ht).symm

/-- What a task says in the middle of the run is what it says in the end. -/
theorem early (hes : es = es₁ ++ es₂) (hu : u ∈ (o.after es₁).world.store.tasksOf x)
    (ht : t ∈ (o.after es).world.store.tasksOf x) (hid : u.id = t.id)
    (hprogress : u.progress ≠ .pending) : u.progress = t.progress := by
  have hreporting := h.reporting hs hd ha hempty hfinal hes ht
  have hsaid := h.progress hs hd ha hempty hfinal ht
  rw [hes, reportsOf_append] at hsaid
  generalize reportsOf t.id es₁ = made at hreporting hsaid
  cases hreporting with
  | none _ hopen | underway _ _ _ _ hopen => exact absurd (hopen u hu hid) hprogress
  | recorded _ _ hlog =>
    rw [hlog u hu hid]
    rw [List.map_append] at hsaid
    exact List.head_eq_of_cons_eq hsaid

/-! ## The asset -/

/-- The asset has all its tasks, and is final. -/
theorem counted {jobs : List Job} (hstaged : o.Staged x p jobs)
    (hlength : verdicts.length = jobs.length) (hsize : jobs.length < UInt32.size) {b : Asset}
    (hb : (o.after es).world.store.assets.get? x = some b) :
    b.status.isTerminal = true ∧
      ∃ n, b.expectedTasks = some n ∧ n.toNat = ((o.after es).world.store.tasksOf x).length := by
  have htasks := h.tasks hs hd ha hempty hfinal
  have hcount : ((o.after es).world.store.tasksOf x).length = jobs.length := by
    rw [← hlength, ← htasks, List.length_map]
  have hstage := ((hstaged.after hs ha hd).2.2 _ (view?_of_asset hb p)).1
  rw [workOn_of_ended h.ended] at hstage
  generalize (o.after es).world.store.tasksOf x = ts at hstage htasks hcount ⊢
  cases hstage with
  | abandoned hfew => omega
  | uncounted hmany => omega
  | decided _ hn hexpected hopen =>
    refine ⟨?_, _, hexpected, hn.trans hcount.symm⟩
    by_contra hpending
    rw [Bool.not_eq_true, Status.isTerminal_eq_false_iff] at hpending
    obtain ⟨t, ht, hprogress⟩ := hopen hpending
    have hmem : t.progress ∈ verdicts := by
      rw [← htasks]
      exact List.mem_map_of_mem ht
    have hterminal := hfinal _ hmem
    rw [hprogress] at hterminal
    cases hterminal

/-- The asset has failed if a task has, and has been saved otherwise. -/
theorem status {jobs : List Job} (hstaged : o.Staged x p jobs) (hjobs : jobs ≠ [])
    (hlength : verdicts.length = jobs.length) (hsize : jobs.length < UInt32.size)
    (hpending : a.status = .pending) {b : Asset}
    (hb : (o.after es).world.store.assets.get? x = some b) :
    b.status = Progress.conclusion verdicts := by
  have htasks := h.tasks hs hd ha hempty hfinal
  obtain ⟨hbfinal, n, hn, hcount⟩ :=
    h.counted hs hd ha hempty hfinal hstaged hlength hsize hb
  have hpos : n ≠ 0 := by
    rintro rfl
    rw [← List.length_map (f := fun t : Task => t.progress), htasks, hlength] at hcount
    exact hjobs (List.length_eq_zero_iff.mp hcount.symm)
  -- the step that settled the asset, and the tasks that were there
  obtain ⟨es₁, e, es₂, c, d, hes, hc, hcpending, hd₁, hstatus⟩ :=
    exists_settling hs hd ha hpending hb hbfinal
  have happend := hes.trans (List.append_cons es₁ e es₂)
  obtain ⟨hat, hextend⟩ := hstaged.settledAt hs ha (hes ▸ hd) (hes ▸ hb) hn hpos hbfinal hc
    hcpending hd₁ hstatus
  rw [← hes] at hextend
  have hids := hextend.ids
  unfold Progress.conclusion
  cases hsettled : b.status with
  | pending =>
    rw [hsettled] at hbfinal
    cases hbfinal
  | saved =>
    obtain ⟨hall, hsuccess⟩ := hat.saved hsettled
    have hsame := hids.eq_of_length (by rw [List.length_map, List.length_map, hall, hcount])
    have hno : Progress.failed ∉ verdicts := by
      intro hfailed
      rw [← htasks] at hfailed
      obtain ⟨t, ht, hprogress⟩ := List.mem_map.mp hfailed
      have hmem := List.mem_map_of_mem (f := fun t : Task => t.id) ht
      rw [← hsame] at hmem
      obtain ⟨u, hu, hid⟩ := List.mem_map.mp hmem
      have hsaid := hsuccess u hu
      rw [h.early hs hd ha hempty hfinal happend hu ht hid (by rw [hsaid]; decide), hprogress]
        at hsaid
      cases hsaid
    rw [if_neg hno]
  | failed =>
    obtain ⟨u, hu, hfailed⟩ := hat.failed hsettled
    obtain ⟨t, ht, hid⟩ := List.mem_map.mp (hids.subset (List.mem_map_of_mem hu))
    have hsaid := h.early hs hd ha hempty hfinal happend hu ht hid.symm (by rw [hfailed]; decide)
    rw [if_pos]
    rw [← htasks, ← hfailed, hsaid]
    exact List.mem_map_of_mem ht

/-- The statuses in the end. -/
theorem statuses {jobs : List Job} (hstaged : o.Staged x p jobs) (hjobs : jobs ≠ [])
    (hlength : verdicts.length = jobs.length) (hsize : jobs.length < UInt32.size)
    (hpending : a.status = .pending) : (o.after es).statuses? x =
      some ⟨Progress.conclusion verdicts,
        if a.isDefault then some (Progress.conclusion verdicts) else none, verdicts⟩ := by
  obtain ⟨b, hb⟩ := Option.isSome_iff_exists.mp h.stored
  have hstatus := h.status hs hd ha hempty hfinal hstaged hjobs hlength hsize hpending hb
  have hend := hs.after hd
  have hdefault : b.isDefault = a.isDefault := by
    rw [(becomes_after hs hd ha hb).same]
  obtain ⟨v, hv⟩ := hend.world.wellFormed.version_of_asset x b hb
  unfold statuses?
  rw [hb, Option.map_some, hstatus, hdefault, h.tasks hs hd ha hempty hfinal, hv, Option.map_some]
  split
  · next hd =>
    rw [hend.world.defaultsLead.status x b v hb (hdefault.trans hd) hv, hstatus]
  · rfl

end

end Delivers

/-! ## Two runs -/

/-- Two runs in which the tasks of an asset are reported in the same way end with the same statuses.
The bound on the number of jobs leaves out no graph (`JobGraph`). -/
theorem reports_confluent {settings : Settings} {now : Timestamp} {ids : IdSupply}
    {es₀ es' : List Event} {c : Command} {a : Asset} {g : JobGraph}
    (ho : o = (initial settings now ids).after es₀)
    (hanswer : (o.request c.flow).1 = .ok (some (.pipeline a g))) (hjobs : g.isEmpty = false)
    (hsize : g.size < UInt32.size) (hlength : verdicts.length = g.size)
    (hfinal : ∀ q ∈ verdicts, q.isTerminal = true)
    (hd : ((o.handle (.command c)).after es).world.ids.Distinct)
    (hd' : ((o.handle (.command c)).after es').world.ids.Distinct)
    (h : (o.handle (.command c)).Delivers a.id o.background.started verdicts es)
    (h' : (o.handle (.command c)).Delivers a.id o.background.started verdicts es') :
    ((o.handle (.command c)).after es).statuses? a.id =
        ((o.handle (.command c)).after es').statuses? a.id ∧
      ((o.handle (.command c)).after es).statuses? a.id =
        some ⟨Progress.conclusion verdicts,
          if a.isDefault then some (Progress.conclusion verdicts) else none, verdicts⟩ := by
  obtain ⟨hs, hd₁, hs₁⟩ := sound_at ho hd
  obtain ⟨hnew, hstaged, hv⟩ := staged_of_answer hs hanswer hd₁
  obtain ⟨ha, hempty, _⟩ := view?_eq_some_iff.mp hv
  have hne := g.order_ne_nil hjobs
  rw [← g.length_order] at hsize hlength
  have hone := h.statuses hs₁ hd ha hempty.symm hfinal hstaged hne hlength hsize hnew.status
  have hother := h'.statuses hs₁ hd' ha hempty.symm hfinal hstaged hne hlength hsize hnew.status
  exact ⟨hone.trans hother.symm, hone⟩

/-! ## Two runs of a table -/

namespace Sample

/-- What is reported of the tasks of the table. -/
def tableVerdicts : List Progress := [.success, .failed, .success]

/-- The pipeline of the table ends, and then the tasks are reported in order. -/
def reportedInOrder : List Event :=
  tableSubmitted ++ delivered 1 0 .success ++ delivered 2 1 .failed ++ delivered 3 2 .success

/-- Two tasks are reported before their number is set, the last one first; the third one is reported
while the pipeline waits to be evaluated. -/
def reportedEarly : List Event :=
  List.replicate 3 (.advance 0) ++ delivered 1 2 .success ++ delivered 2 1 .failed ++
    List.replicate 2 (.advance 0) ++ delivered 3 0 .success ++ [.advance 0]

end Sample

set_option maxRecDepth 100000 in
theorem reportedInOrder_delivers :
    ((Sample.start.after Sample.datasetFiled).handle (.command Sample.createTable)).Delivers
      (Sample.ids.asset 0) 0 Sample.tableVerdicts Sample.reportedInOrder := by
  constructor
  all_goals decide +kernel

set_option maxRecDepth 100000 in
theorem reportedEarly_delivers :
    ((Sample.start.after Sample.datasetFiled).handle (.command Sample.createTable)).Delivers
      (Sample.ids.asset 0) 0 Sample.tableVerdicts Sample.reportedEarly := by
  constructor
  all_goals decide +kernel

set_option maxRecDepth 100000 in
theorem reportedEarly_confluent : ∃ (o : Orchestrator) (a : Asset) (g : JobGraph),
    o = Sample.start.after Sample.datasetFiled ∧
      (o.request Sample.createTable.flow).1 = .ok (some (.pipeline a g)) ∧
      (o.handle (.command Sample.createTable)).Delivers a.id o.background.started
        Sample.tableVerdicts Sample.reportedInOrder ∧
      (o.handle (.command Sample.createTable)).Delivers a.id o.background.started
        Sample.tableVerdicts Sample.reportedEarly ∧
      ((o.handle (.command Sample.createTable)).after Sample.reportedInOrder).statuses? a.id =
          ((o.handle (.command Sample.createTable)).after Sample.reportedEarly).statuses? a.id ∧
      ((o.handle (.command Sample.createTable)).after Sample.reportedInOrder).statuses? a.id =
        some ⟨.failed, if a.isDefault then some .failed else none, Sample.tableVerdicts⟩ := by
  have hd : (((Sample.start.after Sample.datasetFiled).handle (.command Sample.createTable)).after
      Sample.reportedInOrder).world.ids.Distinct := by decide +kernel
  have hd' : (((Sample.start.after Sample.datasetFiled).handle (.command Sample.createTable)).after
      Sample.reportedEarly).world.ids.Distinct := by decide +kernel
  have hleft : ((Sample.start.after Sample.datasetFiled).handle
      (.command Sample.createTable)).jobsLeft? 0 = some 3 := by decide +kernel
  have hkeys : ((Sample.start.after Sample.datasetFiled).handle
      (.command Sample.createTable)).world.store.assets.keys = [Sample.ids.asset 0] := by
    decide +kernel
  have hstarted : (Sample.start.after Sample.datasetFiled).background.started = 0 := by
    decide +kernel
  have hinOrder := reportedInOrder_delivers
  have hearly := reportedEarly_delivers
  generalize ho : Sample.start.after Sample.datasetFiled = o at *
  obtain ⟨hs, hd₁, _⟩ := sound_at ho.symm hd
  rw [← hstarted] at hleft
  obtain ⟨a, g, hanswer, hjobs, hsize⟩ := exists_answer hs hd₁ hleft
  obtain ⟨_, _, hv⟩ := staged_of_answer hs hanswer hd₁
  have hid : a.id = Sample.ids.asset 0 := by
    have hmem := Directory.mem_keys_iff_get?.mpr ⟨a, (view?_eq_some_iff.mp hv).1⟩
    rw [hkeys, List.mem_singleton] at hmem
    exact hmem
  rw [← hid, ← hstarted] at hinOrder hearly
  exact ⟨o, a, g, rfl, hanswer, hinOrder, hearly,
    reports_confluent ho.symm hanswer hjobs (by rw [hsize]; decide) (by rw [hsize]; rfl)
      (by decide) hd hd' hinOrder hearly⟩

end Orchestrator

end GeoAssets
