import GeoAssets.Proofs.Run.Settled
import GeoAssets.Proofs.Run.Work

/-!
# Saving tables

A managed table is saved by the step of one piece of work, which records a report or looks at the
tasks of the table at the end of its pipeline (`Orchestrator.Saves`). What is left of the piece is
to register the tile cache of the table, if one is wished for, and nothing otherwise. There is no
other way in which the registration of a tile cache begins.
-/

namespace GeoAssets

/-! ## Steps that save -/

namespace Activity

variable {w w' : World} {act : Activity} {r : Except Error Next} {a table : Asset}

theorem rest_of_follow (table : Asset) (wants : Bool) : ∃ answer,
    Next.rest? (.ok (.follow .pipeline (some ⟨table, wants⟩))) =
      if wants = true then some (.register table (.answer answer)) else none := by
  cases wants
  · exact ⟨.done, rfl⟩
  · exact ⟨_, rfl⟩

theorem rest_of_afterReport (t : Task) (table : Asset) (wants : Bool) : ∃ answer,
    Next.rest? (.ok (.afterReport t (some ⟨table, wants⟩))) =
      if wants = true then some (.register table (.answer answer)) else none := by
  cases wants
  · exact ⟨.done, rfl⟩
  · exact ⟨_, rfl⟩

theorem evaluate_run (w : World) (x : AssetId) (goal : Goal) :
    (evaluate x goal).proceed.run w =
      (.ok (.follow goal (w.settleByTasks x).1), (w.settleByTasks x).2) :=
  rfl

/-- A report is recorded before the tasks decide, or nothing happens. -/
theorem record_run_cases {x : AssetId} {task : TaskId} {entry : LogEntry}
    (h : (record x task entry).proceed.run w = (r, w')) :
    (∃ t s, w.store.appendTaskLog task entry = .ok (t, s) ∧ s.assets = w.store.assets ∧
        r = .ok (.afterReport t (({ w with store := s } : World).settleByTasks t.asset).1) ∧
        w' = (({ w with store := s } : World).settleByTasks t.asset).2) ∨
      ∃ e, r = .error e ∧ w' = w := by
  change (recordReport task entry).run w = (r, w') at h
  unfold recordReport at h
  rcases Flow.run_takeFromStore_bind_cases h with ⟨t, s, hs, h⟩ | ⟨e, _, rfl, rfl⟩
  · rw [Flow.run_ofWorld_bind] at h
    obtain ⟨rfl, rfl⟩ := Prod.mk.inj h
    have hassets : s.assets = w.store.assets := by
      obtain ⟨_, _, _, rfl⟩ := Store.appendTaskLog_eq_ok hs
      rfl
    exact Or.inl ⟨t, s, hs, hassets, rfl, rfl⟩
  · exact Or.inr ⟨e, rfl, rfl⟩

/-- A managed table is saved where its tasks decide over it, and by nothing else. -/
theorem Moves.of_saves {ops : List Store.Operation} {rest? : Option Activity}
    (hm : act.Moves w ops rest?) (hw : w.store.WellFormed) (hs : act.Suits w.store)
    (hu : act.IsUsual) (ha : w.store.assets.get? table.id = some a) (hpending : a.status = .pending)
    (hmanaged : a.isManagedTable = true) (hsaved : table.status = .saved)
    (htable : table = ops.foldl (fun a (op : Store.Operation) => op.onAsset table.id a) a) :
    (∃ x goal, act = .evaluate x goal) ∨ ∃ x task entry, act = .record x task entry := by
  have hchanged : a.status ≠ table.status := by
    rw [hpending, hsaved]
    decide
  have hcommit : ¬ ∀ op ∈ ops, op.settlements = [] := fun hno =>
    hchanged ((Store.Operation.status_foldl_onAsset hno table.id a).symm.trans
      (congrArg Asset.status htable.symm))
  cases hm with
  | evaluated => exact Or.inl ⟨_, _, rfl⟩
  | recorded | lost => exact Or.inr ⟨_, _, _, rfl⟩
  | @settled c _ _ _ _ h =>
    -- this is a tile cache, and so no table
    have hne : table.id ≠ c.id := by
      intro hid
      have hbecomes := hs.copy c rfl a (hid ▸ ha)
      rw [Asset.isManagedTable, hbecomes.type, hu.1] at hmanaged
      cases hmanaged.symm.trans (Bool.and_false _)
    rw [h.onAsset_of_ne hw hne] at htable
    exact absurd (congrArg Asset.status htable.symm) hchanged
  | @abandoned c _ _ _ h =>
    by_cases hid : table.id = c.id
    · have hsettled := h.onAsset hw (hid ▸ ha)
      rw [← hid, ← htable] at hsettled
      cases hsettled with
      | final => exact absurd rfl hchanged
      | pending _ hstatus =>
        rw [hsaved] at hstatus
        cases hstatus
    · rw [h.onAsset_of_ne hw hid] at htable
      exact absurd (congrArg Asset.status htable.symm) hchanged
  | submitted | expected | inspected | registered =>
    refine absurd (fun op hop => ?_) hcommit
    rw [List.mem_singleton.mp hop]
    rfl
  | unregistered h =>
    refine absurd (fun op hop => ?_) hcommit
    rcases h with rfl | ⟨e, rfl⟩
    · cases hop
    · rw [List.mem_singleton.mp hop]
      rfl
  | refused | counted | uncounted | vanished | received | rejected | tornDown =>
    exact absurd (fun op hop => by cases hop) hcommit

/-- What is left of a step that saves a managed table. -/
theorem rest_of_saves (hw : w.Sound) (hs : act.Suits w.store) (hu : act.IsUsual)
    (hr : act.step.run w = (r, w')) (hd : w'.ids.Distinct)
    (ha : w.store.assets.get? table.id = some a) (hpending : a.status = .pending)
    (hmanaged : a.isManagedTable = true) (htable : w'.store.assets.get? table.id = some table)
    (hsaved : table.status = .saved) :
    w'.store.assets.keys = w.store.assets.keys ∧ ∃ answer, Next.rest? r =
      if table.wantsTileCache = true then some (.register table (.answer answer)) else none := by
  obtain ⟨ops, hm, he⟩ := step_moves hw hs hr hd
  obtain ⟨r₀, hp, hrest⟩ := step_cases hr
  rw [hrest]
  rcases hm.of_saves hw.wellFormed hs hu ha hpending hmanaged hsaved
    (he.asset_of_some hd hw ha htable).1 with ⟨x, goal, rfl⟩ | ⟨x, task, entry, rfl⟩
  · obtain rfl := hu
    rw [evaluate_run] at hp
    obtain ⟨rfl, rfl⟩ := Prod.mk.inj hp
    obtain ⟨hsettled, hkeys⟩ :=
      World.settleByTasks_saves hw.wellFormed ha hpending hmanaged htable hsaved
    rw [hsettled]
    exact ⟨hkeys, rest_of_follow table _⟩
  · rcases record_run_cases hp with ⟨t, s, happend, hassets, rfl, rfl⟩ | ⟨_, _, rfl⟩
    · have hws := (Store.Performs.appendTaskLog happend).wellFormed hw.wellFormed
      obtain ⟨hsettled, hkeys⟩ := World.settleByTasks_saves (w := { w with store := s })
        (x := t.asset) hws (by rw [hassets]; exact ha) hpending hmanaged htable hsaved
      rw [hsettled]
      exact ⟨hkeys.trans (congrArg Directory.keys hassets), rest_of_afterReport t table _⟩
    · rw [ha] at htable
      cases htable
      rw [hpending] at hsaved
      cases hsaved

/-! ## What registrations come from -/

theorem settled_of_follow {goal goal' : Goal} {settled : Option Settled}
    (h : Next.rest? (.ok (.follow goal settled)) = some (.register table goal')) :
    settled = some ⟨table, true⟩ := by
  unfold Next.follow at h
  split at h <;> cases h
  rfl

theorem settled_of_afterReport {t : Task} {goal : Goal} {settled : Option Settled}
    (h : Next.rest? (.ok (.afterReport t settled)) = some (.register table goal)) :
    settled = some ⟨table, true⟩ := by
  unfold Next.afterReport at h
  split at h <;> cases h
  rfl

/-- What an outcome gives back. -/
theorem registersTileCache_of_settle {o : Outcome} {c : Asset} {s : Settled}
    (h : (w.settle c o).1 = some s) : s.registersTileCache = o.registersTileCache := by
  unfold World.settle at h
  split at h <;> cases h
  rfl

/-- The registration of a tile cache begins where a table is saved that wants one. -/
theorem saves_of_rest {goal : Goal} (hw : w.Sound) (hs : act.Suits w.store) (hu : act.IsUsual)
    (hr : act.step.run w = (r, w')) (hd : w'.ids.Distinct)
    (hrest : Next.rest? r = some (.register table goal)) :
    (∃ a, w.store.assets.get? table.id = some a ∧ a.status = .pending) ∧
      w'.store.assets.get? table.id = some table ∧ table.isManagedTable = true ∧
      table.status = .saved ∧ table.wantsTileCache = true := by
  obtain ⟨ops, hm, _⟩ := step_moves hw hs hr hd
  obtain ⟨r₀, hp, hrest₀⟩ := step_cases hr
  rw [hrest] at hm hrest₀
  generalize hrest' : some (register table goal) = rest? at hm
  cases hm with
  | evaluated =>
    rw [evaluate_run] at hp
    obtain ⟨rfl, rfl⟩ := Prod.mk.inj hp
    exact World.saves_of_settleByTasks hw.wellFormed (settled_of_follow hrest₀.symm)
  | recorded =>
    rcases record_run_cases hp with ⟨t, s, happend, hassets, rfl, rfl⟩ | ⟨_, rfl, _⟩
    · have hws := (Store.Performs.appendTaskLog happend).wellFormed hw.wellFormed
      obtain ⟨⟨a, ha, hpending⟩, hsaves⟩ :=
        World.saves_of_settleByTasks (w := { w with store := s }) hws
          (settled_of_afterReport hrest₀.symm)
      rw [hassets] at ha
      exact ⟨⟨a, ha, hpending⟩, hsaves⟩
    · cases hrest₀
  | @settled c o goal' =>
    change (Next.follow goal' <$> Flow.ofWorld (·.settle c o)).run w = (r₀, w') at hp
    obtain ⟨rfl, _⟩ := Prod.mk.inj hp
    have hregisters := registersTileCache_of_settle (settled_of_follow hrest₀.symm)
    rw [hu.2] at hregisters
    cases hregisters
  | tornDown h =>
    obtain ⟨_, _, h⟩ := h _ hrest'.symm
    cases h
  | submitted | refused | counted | expected | inspected | received | registered => cases hrest'
  | uncounted | abandoned | vanished | rejected | lost | unregistered => cases hrest'

end Activity

/-! ## Settled assets -/

/-- Once an asset is settled, only the number of its tasks may still be set. -/
theorem View.Steps.final {v v' : View} (h : v.Steps v')
    (hfinal : v.asset.status.isTerminal = true) :
    ∃ n, v'.asset = { v.asset with expectedTasks := n } := by
  have hopen : ∀ {a : Asset}, a.status.isTerminal = true → a.status ≠ .pending := by
    intro a hfinal hpending
    rw [hpending] at hfinal
    cases hfinal
  cases h with
  | stays | submitted | refused | counted | uncounted | expected | inspected => exact ⟨_, rfl⟩
  | reported _ hd | evaluated hd =>
    cases hd with
    | final => exact ⟨_, rfl⟩
    | failed h | saved h | waits h => exact absurd h (hopen hfinal)
  | abandoned hd | settled hd =>
    cases hd with
    | final => exact ⟨_, rfl⟩
    | pending h => exact absurd h (hopen hfinal)

namespace Orchestrator

variable {o : Orchestrator} {e e' : Event} {es : List Event} {x y : AssetId} {n : Nat}
  {a b b' table table' : Asset}

theorem asset_of_final {p : Nat} (hw : o.Watches x p) (hs : o.Sound)
    (hd : (o.after es).world.ids.Distinct) (ha : o.world.store.assets.get? x = some a)
    (hfinal : a.status.isTerminal = true) (hb : (o.after es).world.store.assets.get? x = some b) :
    ∃ n, b = { a with expectedTasks := n } := by
  refine hw.keeps (q := fun v => ∃ n, v.asset = { a with expectedTasks := n }) ?_ hs hd
    (view?_of_asset ha p) ⟨_, rfl⟩ (view?_of_asset hb p)
  rintro v v' ⟨n, hn⟩ hsteps
  obtain ⟨m, hm⟩ := hsteps.final (by rw [hn]; exact hfinal)
  exact ⟨m, by rw [hm, hn]⟩

/-! ## Deletions -/

/-- A record is deleted in a run. -/
def DeletesIn (o : Orchestrator) (es : List Event) (r : RecordName) : Prop :=
  ∃ es₁ e es₂, es = es₁ ++ e :: es₂ ∧ (o.after es₁).Deletes e r

theorem log?_asset (ha : o.world.store.assets.get? x = some a) :
    o.world.store.log? (.asset x) = some a.log := by
  rw [Store.log?, ha]
  rfl

/-- An asset that is not deleted is still there. -/
theorem exists_asset (hs : o.Sound) (hd : (o.after es).world.ids.Distinct)
    (ha : o.world.store.assets.get? x = some a) (hno : ¬ o.DeletesIn es (.asset x)) :
    ∃ b, (o.after es).world.store.assets.get? x = some b := by
  obtain ⟨_, hlog, _⟩ := log_grows_after hs hd (log?_asset ha) fun es₁ e es₂ hes hdeletes =>
    hno ⟨es₁, e, es₂, hes, hdeletes⟩
  obtain ⟨b, hb, _⟩ := Option.map_eq_some_iff.mp hlog
  exact ⟨b, hb⟩

/-- The default asset of a version is not deleted before any other asset of the version. -/
theorem default_stays (hs : o.Sound) (hd : (o.handle e).world.ids.Distinct)
    (ha : o.world.store.assets.get? x = some a) (hdefault : a.isDefault = true)
    (hb : o.world.store.assets.get? y = some b) (hkey : b.key = a.key)
    (hb' : (o.handle e).world.store.assets.get? y = some b') :
    ∃ a', (o.handle e).world.store.assets.get? x = some a' := by
  by_cases hdeletes : o.Deletes e (.asset x)
  swap
  · obtain ⟨_, hlog, _⟩ := log_grows hs hd hdeletes (log?_asset ha)
    obtain ⟨a', ha', _⟩ := Option.map_eq_some_iff.mp hlog
    exact ⟨a', ha'⟩
  exfalso
  obtain ⟨c, op, rfl, hgrants, hasks, hremoves⟩ := hdeletes
  cases hasks with
  | deleteVersion key =>
    -- the version goes with all its assets
    obtain ⟨a', ha', rfl⟩ := hremoves
    obtain rfl := Option.some.inj (ha.symm.trans ha')
    have hgone := log?_eq_none_of_deletes hs (r := .asset y)
      ⟨_, _, rfl, hgrants, .deleteVersion a.key, b, hb, hkey⟩
    cases hgone.symm.trans (log?_asset hb')
  | deleteAsset id =>
    -- a default asset is not deleted alone
    obtain rfl : x = id := hremoves
    obtain ⟨c, hdeleted⟩ := changes_of_grants hgrants
    obtain ⟨hc, hno, _⟩ := Store.deleteAsset_eq_ok hdeleted
    obtain rfl := Option.some.inj (ha.symm.trans hc)
    rw [hdefault] at hno
    cases hno
  | _ => exact hremoves

/-! ## Saving -/

/-- An event saves a managed table. -/
structure Saves (o : Orchestrator) (e : Event) (table : Asset) : Prop where
  settled : table ∈ o.settledBy e
  isManagedTable : table.isManagedTable = true
  status : table.status = .saved

/-- The table was there before, and pending. -/
theorem Saves.before (h : o.Saves e table) (hs : o.Sound)
    (hd : (o.handle e).world.ids.Distinct) :
    (o.handle e).world.store.assets.get? table.id = some table ∧
      ∃ a, o.world.store.assets.get? table.id = some a ∧ a.status = .pending ∧
        a.isManagedTable = true := by
  rcases (settledBy_cases hs e hd).1 with hnone | ⟨a, b, _, ha, hb, hsettles, hone⟩
  · have hmem := h.settled
    rw [hnone] at hmem
    cases hmem
  · have hmem := h.settled
    rw [hone, List.mem_singleton] at hmem
    subst hmem
    obtain ⟨_, he, _⟩ := handle_cases hs e hd
    have hbecomes := (he.asset_of_some hd hs.world ha hb).2.1
    rw [hbecomes.id]
    refine ⟨hb, a, ha, hsettles.pending, ?_⟩
    have hmanaged := h.isManagedTable
    rw [hbecomes.same] at hmanaged
    exact hmanaged

/-- The piece that saves a table was started before. -/
theorem Saves.started (h : o.Saves (.advance n) table) (hs : o.Sound)
    (hd : (o.handle (.advance n)).world.ids.Distinct) : n < o.background.started := by
  obtain ⟨htable, a, ha, hpending, _⟩ := h.before hs hd
  cases hwork : o.workAt n with
  | some act => exact hs.started n act hwork
  | none =>
    -- a piece that is not there saves nothing
    change (o.advance n).world.store.assets.get? table.id = some table at htable
    rw [(advance_of_none hwork).1, ha] at htable
    cases htable
    cases hpending.symm.trans h.status

/-- A table is saved by the step of a piece of work. What is left of the piece is to register the
tile cache of the table, if one is wished for, and nothing is filed in the step. -/
theorem Saves.begins (h : o.Saves e table) (hs : o.Sound) (hu : o.HasUsualWork)
    (hd : (o.handle e).world.ids.Distinct) : ∃ n answer, e = .advance n ∧
      (o.handle e).world.store.assets.keys = o.world.store.assets.keys ∧
      (o.handle e).workAt n =
        if table.wantsTileCache = true then some (.register table (.answer answer)) else none := by
  obtain ⟨htable, a, ha, hpending, hmanaged⟩ := h.before hs hd
  have hchanged : table ≠ a := by
    rintro rfl
    cases hpending.symm.trans h.status
  by_cases hadvance : ∃ n, e = .advance n
  · obtain ⟨n, rfl⟩ := hadvance
    rcases o.advance_self n with ⟨act, r, hact, hr, hwork, _⟩ | ⟨hworld, _⟩
    · obtain ⟨hkeys, answer, hrest⟩ := Activity.rest_of_saves hs.world (hs.suits n act hact)
        (hu n act hact) hr hd ha hpending hmanaged htable h.status
      exact ⟨n, answer, rfl, hkeys, hwork.trans hrest⟩
    · change (o.advance n).world.store.assets.get? table.id = some table at htable
      rw [hworld, ha] at htable
      exact absurd (Option.some.inj htable).symm hchanged
  · obtain ⟨ops, he, hh⟩ := handle_cases hs e hd
    have hafter := (he.asset_of_some hd hs.world ha htable).1
    cases hh with
    | obeyed hobeys | begun hobeys => exact absurd (hafter.trans (hobeys.onAsset _ a)) hchanged
    | reported | idled => exact absurd hafter hchanged
    | stepped => exact absurd ⟨_, rfl⟩ hadvance

/-- What becomes of a table that was saved: it stays as long as it is not deleted, and so does its
version. -/
theorem Saves.stays (h : o.Saves e table) (hs : o.Sound) {p : Nat}
    (hw : (o.handle e).Watches table.id p) (hplanned : (o.handle e).HasPlanned)
    (hd : ((o.handle e).after es).world.ids.Distinct)
    (hno : ¬ (o.handle e).DeletesIn es (.asset table.id)) :
    (∃ n, ((o.handle e).after es).world.store.assets.get? table.id =
      some { table with expectedTasks := n }) ∧
    ∃ v, ((o.handle e).after es).world.store.versions.get? table.key = some v ∧
      v.status = .saved := by
  have hd₀ := (after_extends _ es).distinct hd
  have hs₀ := hs.handle e hd₀
  obtain ⟨htable, _⟩ := h.before hs hd₀
  obtain ⟨b, hb⟩ := exists_asset hs₀ hd htable hno
  obtain ⟨n, rfl⟩ := asset_of_final hw hs₀ hd htable (by rw [h.status]; rfl) hb
  have hend := (hs₀.after hd).world
  obtain ⟨v, hv⟩ := hend.wellFormed.version_of_asset _ _ hb
  have hdefault := (hplanned _ table htable).isDefault_iff.mpr
    (Asset.isDatabase_of_isManagedTable h.isManagedTable)
  exact ⟨⟨n, hb⟩, v, hv, (hend.defaultsLead.status _ _ v hb hdefault hv).trans h.status⟩

/-! ## Where registrations come from -/

/-- Where what is left of a piece changes, the piece has taken a step. -/
theorem step_of_workAt_ne (hs : o.Sound) {act : Activity} (hact : o.workAt n = some act)
    (hne : (o.handle e).workAt n ≠ some act) : ∃ r, e = .advance n ∧
      act.step.run o.world = (r, (o.handle e).world) ∧ (o.handle e).workAt n = Next.rest? r := by
  by_cases hadvance : e = .advance n
  swap
  · rw [(handle_sameAt hadvance (hs.started n act hact)).workAt, hact] at hne
    exact absurd rfl hne
  subst hadvance
  rcases o.advance_self n with ⟨act', r, hact', hr, hwork, _⟩ | ⟨_, hwork, _⟩
  · obtain rfl := Option.some.inj (hact.symm.trans hact')
    exact ⟨r, rfl, hr, hwork⟩
  · exact absurd (hwork.trans hact) hne

/-- A piece that has something else to do at the end of a run has taken its step before. -/
theorem exists_step (hs : o.Sound) (hd : (o.after es).world.ids.Distinct) {act : Activity}
    (hact : o.workAt n = some act) (hne : (o.after es).workAt n ≠ some act) :
    ∃ es₁ es₂, es = es₁ ++ .advance n :: es₂ ∧ (o.after es₁).workAt n = some act := by
  obtain ⟨es₁, e, es₂, rfl, hbefore, hafter⟩ :=
    exists_onset (p := fun o => o.workAt n ≠ some act) (not_not.mpr hact) hne
  have hact' := not_not.mp hbefore
  obtain ⟨_, rfl, _⟩ := step_of_workAt_ne (hs.after (distinct_of_append hd)) hact'
    (hafter [] List.nil_prefix)
  exact ⟨es₁, es₂, rfl, hact'⟩

/-- New work does not begin with the registration of a tile cache. -/
theorem ne_register_of_begins (hs : o.Sound) (hd : (o.handle e).world.ids.Distinct) {goal : Goal}
    (hbefore : o.workAt n = none) : (o.handle e).workAt n ≠ some (.register table goal) := by
  obtain ⟨ops, _, hh⟩ := handle_cases hs e hd
  intro hafter
  cases hh with
  | obeyed _ _ hwork | idled _ _ hwork =>
    rw [hwork, hbefore] at hafter
    cases hafter
  | begun hobeys _ hwork =>
    rw [hwork, hbefore] at hafter
    split at hafter
    · rcases hobeys.work with ⟨_, hact⟩ | ⟨_, a, g, _, _, _, _, rfl⟩
      · rw [hact] at hafter
        cases hafter
      · have hcopy := Work.copy?_pipeline a g
        rw [Option.some.inj hafter] at hcopy
        cases hcopy
    · cases hafter
  | reported hwork =>
    rw [hwork, hbefore] at hafter
    split at hafter <;> cases hafter
  | @stepped m act _ _ _ hact _ hwork =>
    rw [hwork, hbefore] at hafter
    split at hafter
    · next hm =>
      rw [← hm, hbefore] at hact
      cases hact
    · cases hafter

/-- A piece of work goes over to the registration of a tile cache in the step that saves the
table. -/
theorem saves_of_register (hs : o.Sound) (hu : o.HasUsualWork)
    (hd : (o.handle e).world.ids.Distinct) {goal : Goal}
    (hbefore : o.workAt n ≠ some (.register table goal))
    (hafter : (o.handle e).workAt n = some (.register table goal)) :
    e = .advance n ∧ o.Saves e table ∧ table.wantsTileCache = true := by
  cases hact : o.workAt n with
  | none => exact absurd hafter (ne_register_of_begins hs hd hact)
  | some act =>
    have hne : (o.handle e).workAt n ≠ some act := by
      rw [hafter, ← hact]
      exact hbefore.symm
    obtain ⟨r, rfl, hr, hwork⟩ := step_of_workAt_ne hs hact hne
    obtain ⟨⟨a, ha, hpending⟩, htable, hmanaged, hsaved, hwants⟩ :=
      Activity.saves_of_rest hs.world (hs.suits n act hact) (hu n act hact) hr hd
        (hwork.symm.trans hafter)
    refine ⟨rfl, ⟨(mem_settledBy_iff (hs.handle _ hd)).mpr ⟨htable, a, ha, ?_⟩, hmanaged, hsaved⟩,
      hwants⟩
    rw [hpending, hsaved]
    decide

/-- A piece of work that registers a tile cache has saved the table in an earlier step, and nothing
else was left of it since. -/
theorem exists_saves {settings : Settings} {now : Timestamp} {ids : IdSupply}
    (hd : ((initial settings now ids).after es).world.ids.Distinct) {goal : Goal}
    (hwork : ((initial settings now ids).after es).workAt n = some (.register table goal)) :
    ∃ es₁ es₂, es = es₁ ++ .advance n :: es₂ ∧
      ((initial settings now ids).after es₁).Saves (.advance n) table ∧
      table.wantsTileCache = true ∧ ∀ es₃, es₃ <+: es₂ →
        ((((initial settings now ids).after es₁).handle (.advance n)).after es₃).workAt n =
          some (.register table goal) := by
  obtain ⟨es₁, e, es₂, rfl, hno, hsince⟩ := exists_onset (o := initial settings now ids)
    (p := fun o => o.workAt n = some (.register table goal)) nofun hwork
  rw [after_append, after_cons] at hd
  have hd₁ := (after_extends _ es₂).distinct hd
  have hd₀ := (handle_extends _ e).distinct hd₁
  obtain ⟨rfl, hsaves, hwants⟩ := saves_of_register ((initial_sound settings now ids).after hd₀)
    (hasUsualWork_after hd₀) hd₁ hno (hsince [] List.nil_prefix)
  exact ⟨es₁, es₂, rfl, hsaves, hwants, hsince⟩

/-- Of two places in a list one is before the other, if they are not the same. -/
theorem eq_or_before {α : Type} {l l' r r' : List α} {x y : α} (h : l ++ x :: r = l' ++ y :: r') :
    (l = l' ∧ x = y) ∨ (∃ m, l' = l ++ x :: m) ∨ ∃ m, l = l' ++ y :: m := by
  rcases List.append_eq_append_iff.mp h with ⟨m, rfl, hm⟩ | ⟨m, rfl, hm⟩
  · cases m with
    | nil => exact Or.inl ⟨(List.append_nil l).symm, (List.cons.inj hm).1⟩
    | cons z m =>
      obtain ⟨rfl, _⟩ := List.cons.inj hm
      exact Or.inr (Or.inl ⟨m, rfl⟩)
  · cases m with
    | nil => exact Or.inl ⟨List.append_nil l', (List.cons.inj hm).1.symm⟩
    | cons z m =>
      obtain ⟨rfl, _⟩ := List.cons.inj hm
      exact Or.inr (Or.inr ⟨m, rfl⟩)

section

variable {settings : Settings} {now : Timestamp} {ids : IdSupply} {es₁ es₂ es₃ es₄ : List Event}
  {n' : Nat}

/-- A table that was saved is not saved once more. -/
theorem Saves.not_later (hd : ((initial settings now ids).after es).world.ids.Distinct)
    (h : ((initial settings now ids).after es₁).Saves e table)
    (h' : ((initial settings now ids).after (es₁ ++ e :: es₂)).Saves e' table')
    (hes : es = es₁ ++ e :: es₂ ++ e' :: es₃) (hid : table.id = table'.id) : False := by
  rw [hes, after_append, after_append, after_cons, after_cons] at hd
  rw [after_append, after_cons] at h'
  have hd' := (after_extends _ es₃).distinct hd
  have hd₁ := (handle_extends _ e').distinct hd'
  have hd₀ := (after_extends _ es₂).distinct hd₁
  have hs := (initial_sound settings now ids).after ((handle_extends _ e).distinct hd₀)
  have hs₀ := hs.handle e hd₀
  obtain ⟨htable, _⟩ := h.before hs hd₀
  obtain ⟨_, a, ha, hpending, _⟩ := h'.before (hs₀.after hd₁) hd'
  rw [← hid] at ha
  -- its status is final, but the second event finds it pending
  have hstatus := (becomes_after hs₀ hd₁ htable ha).final (by rw [h.status]; rfl)
  rw [hpending, h.status] at hstatus
  cases hstatus

/-- A table is saved in one place of a run. -/
theorem Saves.unique (hd : ((initial settings now ids).after es).world.ids.Distinct)
    (hes : es = es₁ ++ e :: es₂) (hes' : es = es₃ ++ e' :: es₄)
    (h : ((initial settings now ids).after es₁).Saves e table)
    (h' : ((initial settings now ids).after es₃).Saves e' table') (hid : table.id = table'.id) :
    es₁ = es₃ ∧ e = e' := by
  rcases eq_or_before (hes.symm.trans hes') with hsame | ⟨m, rfl⟩ | ⟨m, rfl⟩
  · exact hsame
  · exact (h.not_later hd h' hes' hid).elim
  · exact (h'.not_later hd h hes hid.symm).elim

/-- Once a tile cache was registered, the piece has something else to do. -/
theorem workAt_advance_ne (hu : o.HasUsualWork) {goal goal' : Goal}
    (hwork : o.workAt n = some (.register table goal)) :
    (o.advance n).workAt n ≠ some (.register table' goal') := by
  intro hafter
  obtain ⟨answer, rfl⟩ := hu n _ hwork
  rw [advance_of_unlocked hwork rfl] at hafter
  rcases hr : (Activity.register table (.answer answer)).step.run o.world with ⟨r, w'⟩
  rw [(takeStep_self hwork hr).2.1] at hafter
  cases Activity.rest_of_register hr hafter

/-- No tile cache is registered later for the same table. -/
theorem register_not_later
    (hd : ((initial settings now ids).after (es₁ ++ .advance n :: es₂)).world.ids.Distinct)
    {goal goal' : Goal}
    (hwork : ((initial settings now ids).after es₁).workAt n = some (.register table goal))
    (hwork' : ((initial settings now ids).after (es₁ ++ .advance n :: es₂)).workAt n' =
      some (.register table' goal')) (hid : table.id = table'.id) : False := by
  have hd₁ := distinct_of_append hd
  obtain ⟨a, b, rfl, hsaves, _, hsince⟩ := exists_saves hd₁ hwork
  obtain ⟨a', b', hes, hsaves', _, hsince'⟩ := exists_saves hd hwork'
  obtain ⟨rfl, hn⟩ := hsaves.unique hd (List.append_assoc _ _ _) hes hsaves' hid
  cases hn
  -- both are what was left of one piece since the table was saved
  obtain rfl : b ++ .advance n :: es₂ = b' := by
    rw [List.append_assoc] at hes
    exact (List.cons.inj (List.append_cancel_left hes)).2
  have hsame := hsince' (b ++ [.advance n]) ⟨es₂, by simp⟩
  rw [after_concat] at hsame
  refine workAt_advance_ne ?_ (hsince b (List.prefix_refl b)) hsame
  rw [after_append, after_cons] at hd₁
  rw [← after_cons, ← after_append] at hd₁ ⊢
  exact hasUsualWork_after hd₁

/-- The tile cache of a table is registered in one place of a run. -/
theorem register_unique (hd : ((initial settings now ids).after es).world.ids.Distinct)
    (hes : es = es₁ ++ .advance n :: es₂) (hes' : es = es₃ ++ .advance n' :: es₄)
    {goal goal' : Goal}
    (hwork : ((initial settings now ids).after es₁).workAt n = some (.register table goal))
    (hwork' : ((initial settings now ids).after es₃).workAt n' = some (.register table' goal'))
    (hid : table.id = table'.id) : es₁ = es₃ := by
  rcases eq_or_before (hes.symm.trans hes') with ⟨hsame, _⟩ | ⟨m, rfl⟩ | ⟨m, rfl⟩
  · exact hsame
  · exact (register_not_later (distinct_of_append (hes' ▸ hd)) hwork hwork' hid).elim
  · exact (register_not_later (distinct_of_append (hes ▸ hd)) hwork' hwork hid.symm).elim

end

end Orchestrator

end GeoAssets
