import GeoAssets.Proofs.Pipeline.Completion
import Mathlib.Data.List.Induction

/-!
# What a final status says about tasks

When an asset with jobs is saved, all its tasks have succeeded; when it fails after its jobs have
been submitted, one of its tasks has failed. This is true in the step that settles the asset. Later
reports are still recorded in the logs of its tasks, and may say something else, but the status of
the asset stays.
-/

namespace GeoAssets

/-! ## Tasks go on -/

/-- Tasks later on: those that were there, with what was reported of them since, and new ones. -/
def TasksExtend (ts us : List Task) : Prop :=
  ∃ us₁ us₂, us = us₁ ++ us₂ ∧ List.Forall₂ Task.Becomes ts us₁

namespace TasksExtend

variable {ts us : List Task}

theorem refl (ts : List Task) : TasksExtend ts ts := by
  refine ⟨ts, [], (List.append_nil ts).symm, ?_⟩
  exact List.forall₂_same.mpr fun t _ => .refl t

theorem report (h : TasksExtend ts us) (id : TaskId) (e : LogEntry) :
    TasksExtend ts (us.map (Task.report id e)) := by
  obtain ⟨us₁, us₂, rfl, hus⟩ := h
  refine ⟨us₁.map (Task.report id e), us₂.map (Task.report id e), List.map_append, ?_⟩
  rw [List.forall₂_map_right_iff]
  exact hus.imp fun _ u h => h.trans (Task.report_becomes id e u)

theorem concat (h : TasksExtend ts us) (t : Task) : TasksExtend ts (us ++ [t]) := by
  obtain ⟨us₁, us₂, rfl, hus⟩ := h
  exact ⟨us₁, us₂ ++ [t], List.append_assoc _ _ _, hus⟩

/-- No task is lost, and the order stays. -/
theorem ids (h : TasksExtend ts us) : ts.map (·.id) <+: us.map (·.id) := by
  obtain ⟨us₁, us₂, rfl, hus⟩ := h
  have hids : ts.map (·.id) = us₁.map (·.id) := by
    induction hus with
    | nil => rfl
    | cons ht _ ih => rw [List.map_cons, List.map_cons, ih, ht.id]
  rw [List.map_append, hids]
  exact List.prefix_append _ _

theorem step {v v' : View} (h : TasksExtend ts v.tasks) (hs : v.Steps v') :
    TasksExtend ts v'.tasks := by
  cases hs with
  | submitted => exact h.concat _
  | reported => exact h.report _ _
  | _ => exact h

end TasksExtend

/-- The pipeline of the asset ended before the number of tasks was set. -/
def View.Abandoned (v : View) : Prop :=
  v.work = none ∧ v.asset.expectedTasks = none

theorem View.Abandoned.step {v v' : View} (h : v.Abandoned) (hs : v.Steps v') : v'.Abandoned := by
  obtain ⟨hwork, hexpected⟩ := h
  cases hs with
  | stays => exact ⟨hwork, hexpected⟩
  | reported _ hd => exact ⟨hwork, hd.expectedTasks.trans hexpected⟩
  | _ => cases hwork

namespace Orchestrator

variable {o : Orchestrator} {x : AssetId} {p : Nat} {jobs : List Job}

/-! ## Where an asset comes from -/

/-- An asset that is there at the end of a run was filed in it. -/
theorem exists_filed {settings : Settings} {now : Timestamp} {ids : IdSupply} {es : List Event}
    (hd : ((initial settings now ids).after es).world.ids.Distinct) {b : Asset}
    (hb : ((initial settings now ids).after es).world.store.assets.get? x = some b) :
    ∃ es₁ es₂ a, es = es₁ ++ es₂ ∧
      ((initial settings now ids).after es₁).world.store.assets.get? x = some a ∧ a.IsNew := by
  have hs := initial_sound settings now ids
  induction es using List.reverseRecOn generalizing b with
  | nil => cases hb
  | append_singleton es e ih =>
    have hd₁ : ((initial settings now ids).after es).world.ids.Distinct := by
      rw [after_concat] at hd
      exact (handle_extends _ e).distinct hd
    cases ha : ((initial settings now ids).after es).world.store.assets.get? x with
    | some a =>
      obtain ⟨es₁, es₂, c, rfl, hc, hnew⟩ := ih hd₁ ha
      exact ⟨es₁, es₂ ++ [e], c, List.append_assoc _ _ _, hc, hnew⟩
    | none =>
      refine ⟨es ++ [e], [], b, (List.append_nil _).symm, hb, ?_⟩
      obtain ⟨hs', _, ops, he, hh⟩ := settles_at hs hd rfl
      rw [after_concat] at hb
      exact isNew_of_none hs' he (hh.settling hs'.world.wellFormed) ha hb

/-- An asset that reached a final status in a run was settled by one of its events. -/
theorem exists_settling (hs : o.Sound) {es : List Event} (hd : (o.after es).world.ids.Distinct)
    {a b : Asset} (ha : o.world.store.assets.get? x = some a) (hpending : a.status = .pending)
    (hb : (o.after es).world.store.assets.get? x = some b) (hfinal : b.status.isTerminal = true) :
    ∃ es₁ e es₂ c d, es = es₁ ++ e :: es₂ ∧
      (o.after es₁).world.store.assets.get? x = some c ∧ c.status = .pending ∧
      (o.after (es₁ ++ [e])).world.store.assets.get? x = some d ∧ d.status = b.status := by
  induction es generalizing o a with
  | nil =>
    rw [after_nil, ha] at hb
    cases hb
    rw [hpending] at hfinal
    cases hfinal
  | cons e es ih =>
    rw [after_cons] at hd hb
    have hd' := (after_extends (o.handle e) es).distinct hd
    have hs' := hs.handle e hd'
    have hdrawn := (o.handle_extends e).hasDrawnAsset (hs.world.asset x a ha)
    obtain ⟨c, hc⟩ := exists_of_after hs' hd hdrawn hb
    cases hcfinal : c.status.isTerminal with
    | true =>
      refine ⟨[], e, es, a, c, rfl, ha, hpending, hc, ?_⟩
      exact ((becomes_after hs' hd hc hb).final hcfinal).symm
    | false =>
      obtain ⟨es₁, e', es₂, c', d, rfl, hc', hpending', hd₁, hstatus⟩ :=
        ih hs' hd hc (Status.isTerminal_eq_false_iff.mp hcfinal) hb
      exact ⟨e :: es₁, e', es₂, c', d, rfl, hc', hpending', hd₁, hstatus⟩

/-! ## The law -/

/-- The event settles the asset with a status, and the tasks of the asset say the same. -/
structure SettledAt (o : Orchestrator) (es : List Event) (e : Event) (x : AssetId) (s : Status)
    (n : UInt32) : Prop where
  before : ∃ a, (o.after es).world.store.assets.get? x = some a ∧ a.status = .pending
  after : ∃ a, (o.after (es ++ [e])).world.store.assets.get? x = some a ∧ a.status = s
  saved : s = .saved → ((o.after (es ++ [e])).world.store.tasksOf x).length = n.toNat ∧
    ∀ t ∈ (o.after (es ++ [e])).world.store.tasksOf x, t.progress = .success
  failed : s = .failed → ∃ t ∈ (o.after (es ++ [e])).world.store.tasksOf x, t.progress = .failed

theorem SettledAt.prepend {es₀ es : List Event} {e : Event} {s : Status} {n : UInt32}
    (h : (o.after es₀).SettledAt es e x s n) : o.SettledAt (es₀ ++ es) e x s n := by
  obtain ⟨hbefore, hafter, hsaved, hfailed⟩ := h
  rw [← after_append] at hbefore hafter hsaved hfailed
  rw [← List.append_assoc] at hafter hsaved hfailed
  exact ⟨hbefore, hafter, hsaved, hfailed⟩

/-- The status that was reached stays. -/
theorem SettledAt.stays {es₁ es₂ : List Event} {e : Event} {s : Status} {n : UInt32}
    (h : o.SettledAt es₁ e x s n) (hs : o.Sound) (hfinal : s.isTerminal = true)
    (hd : (o.after (es₁ ++ e :: es₂)).world.ids.Distinct) {b : Asset}
    (hb : (o.after (es₁ ++ e :: es₂)).world.store.assets.get? x = some b) : b.status = s := by
  obtain ⟨a, ha, rfl⟩ := h.after
  rw [List.append_cons, after_append] at hd hb
  have hs₁ := hs.after ((after_extends _ es₂).distinct hd)
  exact (becomes_after hs₁ hd ha hb).final hfinal

/-- The step that settles an asset whose jobs have all been submitted. -/
theorem Staged.settledAt (h : o.Staged x p jobs) (hs : o.Sound) {a : Asset}
    (ha : o.world.store.assets.get? x = some a) {es₁ es₂ : List Event} {e : Event}
    (hd : (o.after (es₁ ++ e :: es₂)).world.ids.Distinct) {b c d : Asset} {n : UInt32}
    (hb : (o.after (es₁ ++ e :: es₂)).world.store.assets.get? x = some b)
    (hn : b.expectedTasks = some n) (hpos : n ≠ 0) (hfinal : b.status.isTerminal = true)
    (hc : (o.after es₁).world.store.assets.get? x = some c) (hpending : c.status = .pending)
    (hd₁ : (o.after (es₁ ++ [e])).world.store.assets.get? x = some d)
    (hstatus : d.status = b.status) :
    o.SettledAt es₁ e x b.status n ∧
      TasksExtend ((o.after (es₁ ++ [e])).world.store.tasksOf x)
        ((o.after (es₁ ++ e :: es₂)).world.store.tasksOf x) := by
  obtain ⟨v, v', rfl, hstage, hsteps, rfl, htasks, hwork⟩ := h.steps_at hs ha hd rfl hc hd₁
  -- what is seen at the end
  have hend := (h.after hs ha hd).2.2 _ (view?_of_asset hb p)
  have hcount := (hend.1.of_expected hn).1
  have hjobs : jobs ≠ [] := by
    rintro rfl
    exact hpos (UInt32.toNat_inj.mp hcount)
  -- what steps keep from the settling on
  have hkeeps : ∀ {q : View → Prop}, (∀ v v', q v → v.Steps v' → q v') → q v' →
      q ⟨b, (o.after (es₁ ++ e :: es₂)).world.store.tasksOf x,
        (o.after (es₁ ++ e :: es₂)).workOn x p⟩ := by
    intro q hq hv'
    have hview : (o.after (es₁ ++ [e])).view? x p = some v' :=
      view?_eq_some_iff.mpr ⟨hd₁, htasks, hwork⟩
    have hview' := view?_of_asset hb p
    rw [List.append_cons, after_append] at hd hview' ⊢
    have hd₂ := (after_extends (o.after (es₁ ++ [e])) es₂).distinct hd
    exact (h.after hs ha hd₂).2.1.keeps hq (hs.after hd₂) hd hview hv' hview'
  have hextend := hkeeps (q := fun v => TasksExtend v'.tasks v.tasks) (fun _ _ h hs => h.step hs)
    (.refl _)
  rw [htasks] at hextend
  refine ⟨⟨⟨_, hc, hpending⟩, ⟨_, hd₁, hstatus⟩, ?_, ?_⟩, hextend⟩
  all_goals rw [← htasks, ← hstatus]
  all_goals rw [← hstatus] at hfinal
  · intro hsaved
    rcases hsteps.settles_cases hstage hjobs hpending hfinal with
      ⟨_, hrec, hall⟩ | ⟨hfailed, _⟩ | ⟨hfailed, _⟩
    · exact ⟨hrec.length_eq.symm.trans hcount.symm, hall⟩
    · rw [hsaved] at hfailed
      cases hfailed
    · rw [hsaved] at hfailed
      cases hfailed
  · intro hfailed
    rcases hsteps.settles_cases hstage hjobs hpending hfinal with
      ⟨hsaved, _⟩ | ⟨_, hfailed⟩ | ⟨_, habandoned⟩
    · rw [hfailed] at hsaved
      cases hsaved
    · exact hfailed
    · -- the number of tasks would never be set
      have hnone := (hkeeps (q := View.Abandoned) (fun _ _ h hs => h.step hs) habandoned).2
      change b.expectedTasks = none at hnone
      rw [hn] at hnone
      cases hnone

/-- An event of the run settled the asset as its tasks said then. Since then the status of the asset
stayed, and the logs of its tasks only grew. -/
def SettledLawfully (o : Orchestrator) (es : List Event) (x : AssetId) (s : Status) (n : UInt32) :
    Prop :=
  ∃ es₁ e es₂, es = es₁ ++ e :: es₂ ∧ o.SettledAt es₁ e x s n ∧
    (∀ es₃ es₄ b, es₂ = es₃ ++ es₄ →
      (o.after (es₁ ++ e :: es₃)).world.store.assets.get? x = some b → b.status = s) ∧
    TasksExtend ((o.after (es₁ ++ [e])).world.store.tasksOf x) ((o.after es).world.store.tasksOf x)

/-- An asset whose jobs have all been submitted has the status that its tasks gave it when it was
settled. -/
theorem settled_lawfully {settings : Settings} {now : Timestamp} {ids : IdSupply} {es : List Event}
    (hd : ((initial settings now ids).after es).world.ids.Distinct) {b : Asset} {n : UInt32}
    (hb : ((initial settings now ids).after es).world.store.assets.get? x = some b)
    (hn : b.expectedTasks = some n) (hpos : n ≠ 0) (hfinal : b.status.isTerminal = true) :
    (initial settings now ids).SettledLawfully es x b.status n := by
  have hs := initial_sound settings now ids
  obtain ⟨es₀, es', a, rfl, ha, hnew⟩ := exists_filed hd hb
  have hd' := hd
  have hb' := hb
  rw [after_append] at hd' hb'
  have hd₀ := (after_extends ((initial settings now ids).after es₀) es').distinct hd'
  obtain ⟨p, jobs, hstaged⟩ := exists_staged hd₀ ha
  obtain ⟨es₁, e, es₂, c, d, rfl, hc, hpending, hd₁, hstatus⟩ :=
    exists_settling (hs.after hd₀) hd' ha hnew.status hb' hfinal
  obtain ⟨hat, hextend⟩ := hstaged.settledAt (hs.after hd₀) ha hd' hb' hn hpos hfinal hc hpending
    hd₁ hstatus
  refine ⟨es₀ ++ es₁, e, es₂, (List.append_assoc _ _ _).symm, hat.prepend, ?_, ?_⟩
  · rintro es₃ es₄ c' rfl hc'
    refine hat.prepend.stays hs hfinal ?_ hc'
    refine (after_extends _ es₄).distinct ?_
    rw [← after_append, List.append_assoc, List.append_assoc, List.cons_append]
    exact hd
  · rw [List.append_assoc, after_append _ es₀, after_append _ es₀]
    exact hextend

namespace Sample

/-- A table that was saved, one of whose tasks is reported once more. -/
def tableReportedLate : List Event :=
  datasetFiled ++ [.command createTable] ++ tableSaved ++ delivered 4 0 .failed

end Sample

set_option maxRecDepth 100000 in
theorem tableReportedLate_distinct :
    (Sample.start.after Sample.tableReportedLate).world.ids.Distinct := by
  decide +kernel

set_option maxRecDepth 100000 in
theorem tableReportedLate_saved : ((Sample.start.after
    Sample.tableReportedLate).world.store.assets.get? (Sample.ids.asset 0)).any
      (fun b => b.status = .saved ∧ b.expectedTasks = some 3) = true := by
  decide +kernel

set_option maxRecDepth 100000 in
theorem tableReportedLate_lawful : ∃ b, (Sample.start.after
    Sample.tableReportedLate).world.store.assets.get? (Sample.ids.asset 0) = some b ∧
      b.expectedTasks = some 3 ∧ b.status.isTerminal = true ∧
      Sample.start.SettledLawfully Sample.tableReportedLate (Sample.ids.asset 0) b.status 3 := by
  have hsaved := tableReportedLate_saved
  rw [Option.any_eq_true] at hsaved
  obtain ⟨b, hb, hstatus⟩ := hsaved
  obtain ⟨hstatus, hn⟩ := of_decide_eq_true hstatus
  have hfinal : b.status.isTerminal = true := by
    rw [hstatus]
    rfl
  exact ⟨b, hb, hn, hfinal,
    settled_lawfully tableReportedLate_distinct hb hn (by decide) hfinal⟩

set_option maxRecDepth 100000 in
/-- The tasks of a saved asset may be reported to have failed later on. -/
theorem not_lawful_forever : ¬ ∀ es : List Event, (Sample.start.after es).world.ids.Distinct →
    ∀ x b n, (Sample.start.after es).world.store.assets.get? x = some b →
      b.expectedTasks = some n → n ≠ 0 →
      (b.status = .saved →
        ∀ t ∈ (Sample.start.after es).world.store.tasksOf x, t.progress = .success) ∧
      (b.status = .failed →
        ∃ t ∈ (Sample.start.after es).world.store.tasksOf x, t.progress = .failed) := by
  intro hlaw
  have hsaved := tableReportedLate_saved
  rw [Option.any_eq_true] at hsaved
  obtain ⟨b, hb, hstatus⟩ := hsaved
  obtain ⟨hstatus, hn⟩ := of_decide_eq_true hstatus
  have hall := (hlaw _ tableReportedLate_distinct _ b 3 hb hn (by decide)).1 hstatus
  have hfailed : ((Sample.start.after Sample.tableReportedLate).world.store.tasksOf
      (Sample.ids.asset 0)).any (·.progress == .failed) = true := by
    decide +kernel
  rw [List.any_eq_true] at hfailed
  obtain ⟨t, ht, hprogress⟩ := hfailed
  rw [hall t ht] at hprogress
  cases hprogress

end Orchestrator

end GeoAssets
