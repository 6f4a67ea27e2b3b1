import GeoAssets.Proofs.Pipeline.Reports

/-!
# Which task an asset fails for

While an asset is pending none of its tasks has failed. So when a report makes an asset fail, the
first of its tasks that has failed is the one that was reported, and the entry that is added to the
log of the asset, and to the log of its version, points to this task and to no other
(`Orchestrator.BlamesReported`).
-/

namespace GeoAssets

/-! ## Decisions -/

/-- The detail of an entry says where to look for a task. -/
def LogEntry.PointsTo (e : LogEntry) (id : TaskId) : Prop :=
  e.detail = some ("Check /task/" ++ id.text ++ " for more detail")

theorem TaskId.text_inj {i j : TaskId} : i.text = j.text ↔ i = j := by
  cases i
  cases j
  simp

/-- The entry for a failed task points to this task only. -/
theorem Outcome.taskFailedEntry_pointsTo_iff {time : Timestamp} {id id' : TaskId} :
    (taskFailedEntry time id).PointsTo id' ↔ id' = id := by
  change some _ = some _ ↔ _
  rw [Option.some.injEq, String.append_left_inj, String.append_right_inj, TaskId.text_inj]
  exact eq_comm

/-- A report makes no task fail but the one that it is about. -/
theorem Task.of_report_failed {t : Task} {id : TaskId} {e : LogEntry}
    (hcalm : t.progress ≠ .failed) (h : (t.report id e).progress = .failed) :
    t.id = id ∧ e.progress = .failed := by
  by_cases hid : t.id = id
  · refine ⟨hid, ?_⟩
    cases hfinal : e.progress.isTerminal with
    | true => exact (Task.progress_report hfinal hid).symm.trans h
    | false =>
      have hsame : (t.report id e).progress = t.progress := by
        rw [Task.report, hid, Store.only_self]
        exact (ChangeLog.progress_append_single t.log e).trans (if_neg (by rw [hfinal]; decide))
      exact absurd (hsame.symm.trans h) hcalm
  · rw [Task.report, Store.only_of_ne hid] at h
    exact absurd h hcalm

/-- If no task had failed before a report, the tasks fail the asset for the task that was
reported. -/
theorem Decision.finish_of_report {time : Timestamp} {a : Asset} {ts : List Task} {id : TaskId}
    {e : LogEntry} {q : Outcome} (hcalm : ∀ t ∈ ts, t.progress ≠ .failed)
    (h : ofTasks time a (ts.map (Task.report id e)) = .finish q) (hfailed : q.status = .failed) :
    q = .failed a (Outcome.taskFailedEntry time id) ∧ e.progress = .failed := by
  unfold ofTasks at h
  split at h
  · cases h
  cases hf : (ts.map (Task.report id e)).find? (·.progress == .failed) with
  | some u =>
    rw [hf] at h
    cases h
    obtain ⟨t, ht, rfl⟩ := List.mem_map.mp (List.mem_of_find?_eq_some hf)
    have hprogress := List.find?_some (p := fun u : Task => u.progress == .failed) hf
    obtain ⟨rfl, he⟩ := Task.of_report_failed (hcalm t ht) (beq_iff_eq.mp hprogress)
    rw [(Task.report_becomes t.id e t).id]
    exact ⟨rfl, he⟩
  | none =>
    -- without a failed task an asset can only be saved
    rw [hf] at h
    dsimp only at h
    split at h
    · cases h
    split at h
    · cases h
      cases hfailed
    · cases h

/-- A pending asset is settled by one commit if the tile service is not to be told. -/
theorem World.Settlement.eq_commit {w : World} {x : AssetId} {q : Outcome}
    {ops : List Store.Operation} {a : Asset} (h : w.Settlement x q ops)
    (ha : w.store.assets.get? x = some a) (hpending : a.status = .pending)
    (htold : q.redeploysTiles = false) : ∃ t : Transition, ops = [.commit a t] ∧ t.Settles a ∧
      t.status = q.status ∧ t.entry = q.entry := by
  cases h with
  | @commit c t hc _ ht hstatus hentry =>
    obtain rfl : c = a := Option.some.inj (hc.symm.trans ha)
    exact ⟨t, rfl, ht, hstatus, hentry⟩
  | unserved _ _ _ _ _ hredeploys =>
    rw [htold] at hredeploys
    cases hredeploys
  | nothing hfinal =>
    have hfinal := hfinal a ha
    rw [hpending] at hfinal
    cases hfinal

namespace Orchestrator

variable {o o' : Orchestrator} {x : AssetId} {id : TaskId} {entry : LogEntry} {a b : Asset}

/-! ## Steps -/

/-- An asset fails in an event for one of its tasks: one entry is added to its log, and to the log
of its version if it is the default asset, and points to this task only. -/
structure FailsFor (o o' : Orchestrator) (id : TaskId) (a b : Asset) : Prop where
  pending : a.status = .pending
  task : ∃ t ∈ o.world.store.tasksOf a.id, t.id = id
  pointsTo_iff : ∀ id', (Outcome.taskFailedEntry o.world.now id).PointsTo id' ↔ id' = id
  log : b.log = a.log ++ [Outcome.taskFailedEntry o.world.now id]
  versions : ∀ k v, o.world.store.versions.get? k = some v →
    ∃ v', o'.world.store.versions.get? k = some v' ∧ if a.isDefault = true ∧ a.key = k then
        v'.status = .failed ∧ v'.log = v.log ++ [Outcome.taskFailedEntry o.world.now id]
      else v'.status = v.status ∧ v'.log = v.log

/-- No task of a pending asset has failed. -/
def Calm (o : Orchestrator) : Prop :=
  ∀ x a, o.world.store.assets.get? x = some a → a.status = .pending →
    ∀ t ∈ o.world.store.tasksOf x, t.progress ≠ .failed

/-- Where a report is recorded and an asset is settled by one commit, the entry of the transition is
added to its log, and to the log of its version if it is the default asset. -/
theorem logs_of_commit (hs : o.Sound) (hd : o'.world.ids.Distinct) {t : Transition}
    (he : o.world.Evolves [.appendTaskLog id entry, .commit a t] o'.world)
    (ha : o.world.store.assets.get? a.id = some a) (hb : o'.world.store.assets.get? a.id = some b)
    (hpending : a.status = .pending) (ht : t.Settles a) :
    b.log = a.log ++ [t.entry] ∧ ∀ k v, o.world.store.versions.get? k = some v →
      ∃ v', o'.world.store.versions.get? k = some v' ∧ if a.isDefault = true ∧ a.key = k then
          v'.status = t.status ∧ v'.log = v.log ++ [t.entry]
        else v'.status = v.status ∧ v'.log = v.log := by
  have hsettling : o.world.Evolves
      (Store.Operation.settling [.appendTaskLog id entry] a t []) o'.world := he
  have hbefore : [Store.Operation.appendTaskLog id entry] = [] ∨
      ∃ id' e, [Store.Operation.appendTaskLog id entry] = [.appendTaskLog id' e] :=
    Or.inr ⟨_, _, rfl⟩
  obtain ⟨_, _, hsettles⟩ := exists_settles hs hd hsettling hbefore ha hpending ht (Or.inl rfl)
  obtain ⟨hcommitted, -, -⟩ := hsettling.asset_of_some hd hs.world ha hb
  rw [Store.Operation.foldl_settling hbefore ht, Store.only_self] at hcommitted
  refine ⟨?_, hsettles.versions⟩
  rw [hcommitted]
  exact List.append_nil _

/-- An asset that a report makes fail is the asset of its task, and fails for this task. -/
theorem failsFor_of_report (hs : o.Sound) (hcalm : o.Calm) {t : Task} {s : Store}
    {ops : List Store.Operation} (ht : o.world.store.appendTaskLog id entry = .ok (t, s))
    (h : World.Deciding { o.world with store := s } t.asset ops)
    (he : o.world.Evolves (.appendTaskLog id entry :: ops) o'.world) (hd : o'.world.ids.Distinct)
    (ha : o.world.store.assets.get? x = some a) (hb : o'.world.store.assets.get? x = some b)
    (hopen : a.status ≠ .failed) (hfailed : b.status = .failed) :
    entry.progress = .failed ∧ o.FailsFor o' id a b := by
  have hw := hs.world.wellFormed
  have hws := (Store.Performs.appendTaskLog ht).wellFormed hw
  obtain ⟨hb', -, -⟩ := he.asset_of_some hd hs.world ha hb
  change b = ops.foldl (fun a (op : Store.Operation) => op.onAsset x a) a at hb'
  have hchanged : b ≠ a := by
    rintro rfl
    exact hopen hfailed
  obtain rfl : x = t.asset := by
    by_contra hne
    exact hchanged (hb'.trans (h.onAsset_of_ne hws hne a))
  obtain ⟨has, htasks, htask⟩ := tasksOf_of_appendTaskLog hw ht ha
  cases h with
  | wait => exact absurd hb' hchanged
  | @finish c q _ hc hdecision hsettlement =>
    obtain rfl : c = a := Option.some.inj (hc.symm.trans has)
    have hsettled := hsettlement.onAsset hws hc
    rw [← hb'] at hsettled
    cases hsettled with
    | final => exact absurd rfl hchanged
    | pending hpending hstatus =>
      rw [htasks] at hdecision
      obtain ⟨rfl, hentry⟩ := Decision.finish_of_report (hcalm _ _ ha hpending) hdecision
        (hstatus.symm.trans hfailed)
      obtain ⟨u, rfl, hu, hustatus, huentry⟩ := hsettlement.eq_commit hc hpending rfl
      have hid := hw.asset_id _ c ha
      rw [← hid] at ha hb
      obtain ⟨hlog, hversions⟩ := logs_of_commit hs hd he ha hb hpending hu
      rw [huentry] at hlog hversions
      rw [hustatus] at hversions
      exact ⟨hentry, hpending, hid ▸ htask, fun _ => Outcome.taskFailedEntry_pointsTo_iff, hlog,
        hversions⟩

/-- A report of a failure makes the asset of its task fail, if it is pending. -/
theorem fails_of_report (hs : o.Sound) {t : Task} {s : Store} {ops : List Store.Operation}
    (ht : o.world.store.appendTaskLog id entry = .ok (t, s))
    (h : World.Deciding { o.world with store := s } t.asset ops)
    (he : o.world.Evolves (.appendTaskLog id entry :: ops) o'.world) (hd : o'.world.ids.Distinct)
    (ha : o.world.store.assets.get? t.asset = some a)
    (hb : o'.world.store.assets.get? t.asset = some b) (hpending : a.status = .pending)
    (hentry : entry.progress = .failed) : b.status = .failed := by
  have hw := hs.world.wellFormed
  obtain ⟨rfl, -, -⟩ := he.asset_of_some hd hs.world ha hb
  obtain ⟨has, htasks, u, hu, hid⟩ := tasksOf_of_appendTaskLog hw ht ha
  have hdecided := h.onAsset ((Store.Performs.appendTaskLog ht).wellFormed hw) has
  dsimp only at hdecided
  rw [htasks] at hdecided
  have hmem := List.mem_map_of_mem (f := Task.report id entry) hu
  have hfailed : (u.report id entry).progress = .failed :=
    (Task.progress_report (by rw [hentry]; rfl) hid).trans hentry
  change (ops.foldl (fun a (op : Store.Operation) => op.onAsset t.asset a) a).status = .failed
  generalize ops.foldl (fun a (op : Store.Operation) => op.onAsset t.asset a) a = b at hdecided ⊢
  cases hdecided with
  | final hfinal =>
    rw [hpending] at hfinal
    cases hfinal
  | failed _ _ hstatus => exact hstatus
  | saved _ _ _ hall => cases hfailed.symm.trans (hall _ hmem)
  | waits _ hnone => exact absurd hfailed (hnone _ hmem)

/-! ## Runs -/

section

variable {settings : Settings} {now : Timestamp} {ids : IdSupply} {es : List Event}

theorem calm_after (hd : ((initial settings now ids).after es).world.ids.Distinct) :
    ((initial settings now ids).after es).Calm := by
  intro x a ha
  obtain ⟨p, _, _, _, hview⟩ := exists_staged hd ha
  exact (hview _ (view?_of_asset ha p)).2

/-- A report that a piece is about to record was made, and began the piece. -/
theorem exists_report (hd : ((initial settings now ids).after es).world.ids.Distinct) {n : Nat}
    (h : ((initial settings now ids).after es).reportAt n = some (id, entry)) :
    ∃ es₁ es₂, es = es₁ ++ .report id entry :: es₂ ∧
      ((initial settings now ids).after es₁).background.started = n := by
  induction es using List.reverseRecOn with
  | nil => cases h
  | append_singleton es e ih =>
    obtain ⟨hs, hd', ops, -, hh⟩ := settles_at (initial_sound settings now ids) hd rfl
    rw [after_concat] at h
    -- a report that was there before was made before
    have hbefore : ((initial settings now ids).after es).reportAt n = some (id, entry) →
        ∃ es₁ es₂, es ++ [e] = es₁ ++ .report id entry :: es₂ ∧
          ((initial settings now ids).after es₁).background.started = n := by
      intro h
      obtain ⟨es₁, es₂, rfl, hstarted⟩ := ih ((handle_extends _ e).distinct hd') h
      exact ⟨es₁, es₂ ++ [e], by rw [List.append_assoc, List.cons_append], hstarted⟩
    generalize ((initial settings now ids).after es).handle e = o' at h hh
    cases hh with
    | obeyed _ _ hwork | idled _ _ hwork =>
      refine hbefore ?_
      rw [reportAt, ← hwork]
      exact h
    | begun hobeys _ hwork =>
      rw [reportAt_of_work hwork] at h
      split at h
      · change _ = some _ at h
        rw [Option.bind_some, Work.report?_of_obeys hobeys] at h
        cases h
      · exact hbefore h
    | reported hwork =>
      rw [reportAt_of_work hwork] at h
      split at h
      · next hn =>
        cases h
        exact ⟨es, [], rfl, hn.symm⟩
      · exact hbefore h
    | stepped hact hm hwork =>
      rw [reportAt_of_work hwork] at h
      split at h
      · next hn =>
        obtain ⟨rest, rfl, hrest⟩ := Option.bind_eq_some_iff.mp h
        refine hbefore ?_
        rw [reportAt, hn, hact]
        exact hm.report? hrest
      · exact hbefore h

/-- In a run an asset that a report makes fail is said to have failed for the task that was
reported. -/
structure BlamesReported (o : Orchestrator) (es : List Event) : Prop where
  /-- No task of a pending asset has failed, in any state of the run. -/
  calm : ∀ es₁ es₂, es = es₁ ++ es₂ → (o.after es₁).Calm
  /-- Where the report of a task is recorded, an asset that fails does so for this task, and the
  report is one of a failure. -/
  blames : ∀ es₁ n es₂ x y id entry a b, es = es₁ ++ .advance n :: es₂ →
    (o.after es₁).workAt n = some (.record y id entry) →
    (o.after es₁).world.store.assets.get? x = some a →
    (o.after (es₁ ++ [.advance n])).world.store.assets.get? x = some b →
    a.status ≠ .failed → b.status = .failed →
      entry.progress = .failed ∧ (o.after es₁).FailsFor (o.after (es₁ ++ [.advance n])) id a b
  /-- A failure that is recorded makes the asset of its task fail at once, if it is pending. -/
  fails : ∀ es₁ n es₂ y id entry t a b, es = es₁ ++ .advance n :: es₂ →
    (o.after es₁).workAt n = some (.record y id entry) →
    (o.after (es₁ ++ [.advance n])).workAt n ≠ some (.record y id entry) →
    entry.progress = .failed → (o.after es₁).world.store.tasks.get? id = some t →
    (o.after es₁).world.store.assets.get? t.asset = some a →
    (o.after (es₁ ++ [.advance n])).world.store.assets.get? t.asset = some b →
    a.status = .pending → b.status = .failed
  /-- What is recorded is a report that was made before, and that began the piece of work. -/
  reported : ∀ es₁ es₂ n y id entry, es = es₁ ++ es₂ →
    (o.after es₁).workAt n = some (.record y id entry) → ∃ es₃ es₄,
      es₁ = es₃ ++ .report id entry :: es₄ ∧ (o.after es₃).background.started = n

end

/-- In every run the asset that a report makes fail is said to have failed for the task that was
reported. -/
theorem initial_blamesReported {settings : Settings} {now : Timestamp} {ids : IdSupply}
    {es : List Event} (hd : ((initial settings now ids).after es).world.ids.Distinct) :
    (initial settings now ids).BlamesReported es := by
  constructor
  case calm =>
    intro es₁ es₂ hes
    exact calm_after (distinct_of_append (hes ▸ hd))
  case blames =>
    intro es₁ n es₂ x y id entry a b hes hact ha hb hopen hfailed
    obtain ⟨hs, hd', ops, he, hh⟩ := settles_at (initial_sound settings now ids) hd hes
    have hcalm := calm_after ((handle_extends _ _).distinct hd')
    rw [after_concat] at hb ⊢
    have hchanged : ops ≠ [] := by
      rintro rfl
      obtain ⟨rfl, -, -⟩ := he.asset_of_some hd' hs.world ha hb
      exact hopen hfailed
    generalize ((initial settings now ids).after es₁).handle _ = o' at hd' he hh hb ⊢
    cases hh with
    | idled => exact absurd rfl hchanged
    | stepped hact' hm =>
      cases hact'.symm.trans hact
      cases hm with
      | recorded ht h => exact failsFor_of_report hs hcalm ht h he hd' ha hb hopen hfailed
      | lost | vanished => exact absurd rfl hchanged
  case fails =>
    intro es₁ n es₂ y id entry t a b hes hact hrest hentry ht ha hb hpending
    obtain ⟨hs, hd', ops, he, hh⟩ := settles_at (initial_sound settings now ids) hd hes
    rw [after_concat] at hb hrest
    generalize ((initial settings now ids).after es₁).handle _ = o' at hd' he hh hb hrest
    cases hh with
    | idled _ _ hwork => exact absurd ((hwork n).trans hact) hrest
    | stepped hact' hm =>
      cases hact'.symm.trans hact
      cases hm with
      | recorded hlog h =>
        obtain ⟨u, hu, rfl, _⟩ := Store.appendTaskLog_eq_ok hlog
        cases hu.symm.trans ht
        exact fails_of_report hs hlog h he hd' ha hb hpending hentry
      | lost hnone => cases hnone.symm.trans ht
      | vanished hcopy => cases hcopy
  case reported =>
    intro es₁ es₂ n y id entry hes hact
    refine exists_report (distinct_of_append (hes ▸ hd)) ?_
    rw [reportAt, hact]
    rfl

namespace Sample

/-- Before the pipeline of a table has counted its tasks the last one succeeds and the second one
fails; after that the first one fails, too. -/
def tableFailed : List Event :=
  datasetFiled ++ .command createTable :: List.replicate 3 (.advance 0) ++
    delivered 1 2 .success ++ delivered 2 1 .failed ++ delivered 3 0 .failed

end Sample

set_option maxRecDepth 100000 in
/-- The logs of the table and of its version point to the second task, although the first one has
failed, too. -/
theorem tableFailed_blamesReported : ∃ es, es = Sample.tableFailed ∧
    (Sample.start.after es).world.ids.Distinct ∧
      (Sample.start.after es).world.store.assets.values.map (fun a => (a.status, a.isDefault)) =
        [(.failed, true)] ∧
      (Sample.start.after es).world.store.tasks.values.map (·.progress) =
        [.failed, .failed, .success] ∧
      (Sample.start.after es).world.store.assets.values.flatMap (·.log.map (·.detail)) =
        [some "Check /task/tt for more detail"] ∧
      (Sample.start.after es).world.store.versions.values.flatMap (·.log.map (·.detail)) =
        [some "Check /task/tt for more detail"] ∧
      Sample.start.BlamesReported es := by
  have hd : (Sample.start.after Sample.tableFailed).world.ids.Distinct := by decide +kernel
  refine ⟨_, rfl, hd, ?_, ?_, ?_, ?_, initial_blamesReported hd⟩
  · decide +kernel
  · decide +kernel
  · decide +kernel
  · decide +kernel

end Orchestrator

end GeoAssets
