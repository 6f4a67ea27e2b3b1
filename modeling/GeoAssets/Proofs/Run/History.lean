import GeoAssets.Proofs.Catalog.History
import GeoAssets.Proofs.Lifecycle.Decision
import GeoAssets.Proofs.Run.Answer

/-!
# Logs in runs

In a run the log of a record only grows at its end, whatever is done and whatever fails, until a
caller deletes the record (`Orchestrator.KeepsLogs`).
-/

namespace GeoAssets

/-! ## Steps -/

/-- Steps do what callers do not ask for, but for filing tile caches. -/
theorem Activity.Moves.isRequest {w : World} {a : Activity} {ops : List Store.Operation}
    {rest? : Option Activity} (hw : w.store.WellFormed) (hm : a.Moves w ops rest?) :
    (∃ cache, ops = [.createAsset cache]) ∨ ∀ op ∈ ops, op.isRequest = false := by
  cases hm with
  | registered => exact Or.inl ⟨_, rfl⟩
  | abandoned h | settled h => exact Or.inr (h.isRequest hw)
  | evaluated h => exact Or.inr (h.isRequest hw)
  | recorded ht h =>
    right
    intro op hop
    rcases List.mem_cons.mp hop with rfl | hop
    · rfl
    · exact h.isRequest ((Store.Performs.appendTaskLog ht).wellFormed hw) op hop
  | unregistered h =>
    right
    intro op hop
    rcases h with rfl | ⟨e, rfl⟩
    · cases hop
    · rw [List.mem_singleton.mp hop]
      rfl
  | submitted | expected | inspected =>
    right
    intro op hop
    rw [List.mem_singleton.mp hop]
    rfl
  | refused | counted | uncounted | vanished | received | rejected | lost | tornDown =>
    right
    intro op hop
    cases hop

/-- Steps remove no record. -/
theorem Activity.Moves.not_removes {w : World} {a : Activity} {ops : List Store.Operation}
    {rest? : Option Activity} (hw : w.store.WellFormed) (hm : a.Moves w ops rest?)
    (r : RecordName) : ∀ op ∈ ops, ∀ s, ¬ op.Removes s r := by
  intro op hop s
  rcases hm.isRequest hw with ⟨cache, rfl⟩ | hreq
  · rw [List.mem_singleton.mp hop]
    exact id
  · exact Store.Operation.not_removes_of_isRequest (hreq op hop) r

namespace Orchestrator

variable {o : Orchestrator} {e : Event} {r : RecordName} {log : ChangeLog}

/-! ## Events -/

/-- An event deletes a record: a caller asks for it, and the request is granted. -/
def Deletes (o : Orchestrator) (e : Event) (r : RecordName) : Prop :=
  ∃ c op, e = .command c ∧ o.Grants c ∧ c.Asks op ∧ op.Removes o.world.store r

/-- The log of a record that is not deleted grows. -/
theorem log_grows (hs : o.Sound) (hd : (o.handle e).world.ids.Distinct) (hno : ¬ o.Deletes e r)
    (hlog : o.world.store.log? r = some log) :
    ∃ log', (o.handle e).world.store.log? r = some log' ∧ log <+: log' := by
  have hw := hs.world.wellFormed
  by_cases hcommand : ∃ c, e = .command c
  · obtain ⟨c, rfl⟩ := hcommand
    rcases handle_command_performs hs hd with hstore | ⟨hgrants, op, hasks, hop⟩
    · rw [hstore]
      exact ⟨log, hlog, List.prefix_refl _⟩
    · exact (hop.log_cases hw hlog).resolve_left fun hremoved =>
        hno ⟨c, op, rfl, hgrants, hasks, hremoved.2⟩
  · obtain ⟨ops, he, hh⟩ := handle_cases hs e hd
    refine he.store.log_grows hw ?_ hlog
    cases hh with
    | obeyed | begun => exact absurd ⟨_, rfl⟩ hcommand
    | reported | idled =>
      intro op hop
      cases hop
    | stepped _ hm => exact hm.not_removes hw r

/-- A record that is deleted is gone. -/
theorem log?_eq_none_of_deletes (hs : o.Sound) (h : o.Deletes e r) :
    (o.handle e).world.store.log? r = none := by
  obtain ⟨c, op, rfl, hgrants, hasks, hr⟩ := h
  have hc := changes_of_grants hgrants
  have hw := hs.world.wellFormed
  cases hasks with
  | deleteDataset name =>
    obtain ⟨_, h⟩ := hc
    exact (Store.Performs.deleteDataset h).log?_eq_none hw hr
  | deleteVersion key =>
    obtain ⟨_, h⟩ := hc
    exact (Store.Performs.deleteVersion h).log?_eq_none hw hr
  | deleteAsset id =>
    obtain ⟨_, h⟩ := hc
    exact (Store.Performs.deleteAsset h).log?_eq_none hw hr
  | _ => exact absurd hr id

/-! ## Runs -/

/-- In a run the logs of records only grow until the records are deleted. -/
structure KeepsLogs (o : Orchestrator) (es : List Event) : Prop where
  /-- A record that is there in some state, and is not deleted before a later one, is there in the
  later one; its log begins with what it was before. -/
  grows : ∀ es₁ es₂ es₃ r log, es = es₁ ++ es₂ ++ es₃ →
    (o.after es₁).world.store.log? r = some log →
    (∀ es₄ e es₅, es₂ = es₄ ++ e :: es₅ → ¬ (o.after (es₁ ++ es₄)).Deletes e r) →
    ∃ log', (o.after (es₁ ++ es₂)).world.store.log? r = some log' ∧ log <+: log'
  /-- A record that is deleted is gone. -/
  gone : ∀ es₁ e es₂ r, es = es₁ ++ e :: es₂ → (o.after es₁).Deletes e r →
    (o.after (es₁ ++ [e])).world.store.log? r = none

/-- The log of a record that is not deleted grows, event by event. -/
theorem log_grows_after {o : Orchestrator} (hs : o.Sound) {es : List Event}
    (hd : (o.after es).world.ids.Distinct) (hlog : o.world.store.log? r = some log)
    (hno : ∀ es₁ e es₂, es = es₁ ++ e :: es₂ → ¬ (o.after es₁).Deletes e r) :
    ∃ log', (o.after es).world.store.log? r = some log' ∧ log <+: log' := by
  induction es generalizing o log with
  | nil => exact ⟨log, hlog, List.prefix_refl _⟩
  | cons e es ih =>
    rw [after_cons] at hd ⊢
    have hd' := (after_extends (o.handle e) es).distinct hd
    obtain ⟨log₁, hlog₁, hgrows⟩ := log_grows hs hd' (hno [] e es rfl) hlog
    obtain ⟨log', hlog', hgrows'⟩ := ih (hs.handle e hd') hd hlog₁ fun es₁ e' es₂ hes =>
      hno (e :: es₁) e' es₂ (by rw [hes]; rfl)
    exact ⟨log', hlog', hgrows.trans hgrows'⟩

/-- The logs of records only grow, in every run. -/
theorem initial_keepsLogs {settings : Settings} {now : Timestamp} {ids : IdSupply}
    {es : List Event} (hd : ((initial settings now ids).after es).world.ids.Distinct) :
    (initial settings now ids).KeepsLogs es := by
  have hs := initial_sound settings now ids
  constructor
  case grows =>
    intro es₁ es₂ es₃ r log hes hlog hno
    rw [hes, after_append, after_append] at hd
    have hd₂ := (after_extends _ es₃).distinct hd
    have hs₁ := hs.after ((after_extends _ es₂).distinct hd₂)
    rw [after_append]
    refine log_grows_after hs₁ hd₂ hlog fun es₄ e es₅ hes₂ => ?_
    rw [← after_append]
    exact hno es₄ e es₅ hes₂
  case gone =>
    intro es₁ e es₂ r hes hdeletes
    rw [hes, after_append, after_cons] at hd
    have hd' := (after_extends _ es₂).distinct hd
    rw [after_concat]
    exact log?_eq_none_of_deletes (hs.after ((handle_extends _ e).distinct hd')) hdeletes

/-! ## A run -/

set_option maxRecDepth 100000 in
theorem tableSaved_keepsLogs : ∃ es, es = Sample.datasetFiled ++ [.command Sample.createTable] ++
    Sample.tableSaved ∧ (Sample.start.after es).world.ids.Distinct ∧
      [.dataset "d", .version ⟨"d", "v1"⟩, .asset (Sample.ids.asset 0),
        .task (Sample.ids.task 0)].map (fun r =>
          ((Sample.start.after es).world.store.log? r).map fun log => log.map (·.progress)) =
        [some [], some [.success], some [.success], some [.pending, .success]] ∧
      Sample.start.KeepsLogs es := by
  refine ⟨_, rfl, ?_⟩
  have hd : (Sample.start.after (Sample.datasetFiled ++ [.command Sample.createTable] ++
      Sample.tableSaved)).world.ids.Distinct := by decide +kernel
  refine ⟨hd, ?_, initial_keepsLogs hd⟩
  decide +kernel

end Orchestrator

end GeoAssets
