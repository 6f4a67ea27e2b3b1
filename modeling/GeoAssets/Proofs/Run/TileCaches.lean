import GeoAssets.Proofs.Run.Reach
import GeoAssets.Proofs.Run.Saving

/-!
# Tile caches of tables

A managed table whose options ask for a dynamic tile cache has one registered by the piece of work
that saves it, before this piece ends. From the state in which the cache is filed only this piece is
about it, and decides over it without jobs: the cache is saved if the table shows geometries for web
maps, and fails otherwise. All of this leaves the table and its version saved
(`Orchestrator.RegistersTileCaches`).
-/

namespace GeoAssets

/-! ## What is seen of a tile cache -/

/-- What is seen of the tile cache of a table after it was filed, as long as it is there. -/
inductive View.TileCachePhase (table cache : Asset) (answer : Answer) : View → Prop where
  | filed : TileCachePhase table cache answer ⟨cache, [], some (.inspect cache (.answer answer))⟩
  | inspected {o : Outcome} (fields : o.attachesFields = false)
    (final : o.status.isTerminal = true) (saved : o.status = .saved ↔ table.ShowsWebMap) :
    TileCachePhase table cache answer ⟨{ cache with expectedTasks := some 0 }, [],
      some (.settle cache o (.answer answer))⟩
  | settled {status : Status} {log : ChangeLog} (final : status.isTerminal = true)
    (saved : status = .saved ↔ table.ShowsWebMap) : TileCachePhase table cache answer
      ⟨{ cache with status := status, log := log, expectedTasks := some 0 }, [], none⟩

/-- The number of its tasks does not matter for what a table shows. -/
theorem Asset.showsWebMap_iff {table : Asset} (n : Option UInt32) :
    { table with expectedTasks := n }.ShowsWebMap ↔ table.ShowsWebMap :=
  ⟨fun h => ⟨h.column, h.index⟩, fun h => ⟨h.column, h.index⟩⟩

namespace Orchestrator

variable {o : Orchestrator} {e : Event} {es : List Event} {n : Nat}
  {table cache : Asset} {answer : Answer}

/-- The outcome for the tile cache of a table that is there and saved. -/
theorem inspectedOutcome_of_table (hs : o.Sound) (hplanned : o.HasPlanned) {t : Asset}
    (ht : o.world.store.assets.get? t.id = some t) (hmanaged : t.isManagedTable = true)
    (hsaved : t.status = .saved) (htype : cache.type = .dynamicVectorTileCache)
    (hkey : cache.key = t.key) :
    (Activity.inspectedOutcome o.world cache).attachesFields = false ∧
      ((Activity.inspectedOutcome o.world cache).status = .saved ↔ t.ShowsWebMap) := by
  have htable := Asset.isDatabase_of_isManagedTable hmanaged
  have hdefault := (hplanned _ _ ht).isDefault_iff.mpr htable
  have hrenders : TileCache.tableOf? o.world.store cache.key = some t := by
    rw [hkey]
    refine TileCache.tableOf?_eq_some hs.world.wellFormed ht htable hsaved ?_
    intro y b hb hbkey hbtype
    exact hs.world.defaultsLead.unique _ _ _ _ hb ht ((hplanned y b hb).isDefault_iff.mpr hbtype)
      hdefault hbkey
  rw [Activity.inspectedOutcome, if_pos htype, hrenders]
  exact ⟨(Outcome.ofTileCache_adds_nothing htype _).1, Outcome.ofTileCache_status htable hsaved⟩

/-- A piece of work has filed the tile cache of a table, and nothing else is done about it. -/
structure TendsTileCache (o : Orchestrator) (n : Nat) (table cache : Asset) (answer : Answer) :
    Prop where
  watches : o.Watches cache.id n
  phase : ∀ v, o.view? cache.id n = some v → v.TileCachePhase table cache answer
  /-- The table is there as long as the cache is. -/
  tableStays : ∀ c, o.world.store.assets.get? cache.id = some c → ∃ k,
    o.world.store.assets.get? table.id = some { table with expectedTasks := k }
  planned : o.HasPlanned
  watchesTable : ∃ p, o.Watches table.id p

/-- A table that was saved, and the tile cache that is filed for it. -/
structure IsTileCacheOf (cache table : Asset) : Prop where
  isManagedTable : table.isManagedTable = true
  saved : table.status = .saved
  type : cache.type = .dynamicVectorTileCache
  key : cache.key = table.key
  pending : cache.status = .pending

/-- The outcome with which a piece goes on is the one that it has found in its last step. -/
theorem outcome_of_inspect (hs : o.Sound) {goal goal' : Goal}
    (hact : o.workAt n = some (.inspect cache goal)) {b c : Asset}
    (hb : o.world.store.assets.get? cache.id = some b) {q : Outcome}
    (hact' : (o.handle e).workAt n = some (.settle c q goal')) :
    e = .advance n ∧ q = Activity.inspectedOutcome o.world cache := by
  obtain ⟨r, he, hr, hrest⟩ := step_of_workAt_ne hs hact (by rw [hact']; nofun)
  rw [Activity.inspect_step goal hb] at hr
  obtain ⟨rfl, _⟩ := Prod.mk.inj hr
  cases hact'.symm.trans hrest
  exact ⟨he, rfl⟩

/-- What the last step of a piece makes of a pending asset. -/
theorem asset_of_settle (hs : o.Sound) {q : Outcome}
    (hact : o.workAt n = some (.settle cache q (.answer answer)))
    (hended : (o.handle e).workAt n ≠ some (.settle cache q (.answer answer))) {b c : Asset}
    (hb : o.world.store.assets.get? cache.id = some b) (hid : b.id = cache.id)
    (hpending : b.status = .pending) (hfields : q.attachesFields = false)
    (hc : (o.handle e).world.store.assets.get? cache.id = some c) :
    ∃ log, c = { b with status := q.status, log := log } := by
  obtain ⟨r, _, hr, _⟩ := step_of_workAt_ne hs hact hended
  rw [Activity.settle_step] at hr
  obtain ⟨_, hworld⟩ := Prod.mk.inj hr
  rw [← hworld, World.asset_of_settle hid hb hpending hfields] at hc
  exact ⟨_, (Option.some.inj hc).symm⟩

/-- What an event does to what is seen of the cache. -/
theorem TendsTileCache.phase_handle (h : o.TendsTileCache n table cache answer) (hs : o.Sound)
    (hcache : IsTileCacheOf cache table) (hd : (o.handle e).world.ids.Distinct) {v v' : View}
    (hv : o.view? cache.id n = some v) (hv' : (o.handle e).view? cache.id n = some v') :
    v'.TileCachePhase table cache answer := by
  have hsteps := h.watches.steps hs e hd hv hv'
  obtain ⟨hc, _, hwork⟩ := view?_eq_some_iff.mp hv
  obtain ⟨hc', _, hwork'⟩ := view?_eq_some_iff.mp hv'
  have hphase := h.phase v hv
  cases hphase with
  | filed =>
    cases hsteps with
    | stays => exact .filed
    | reported ht =>
      obtain ⟨_, ht, _⟩ := ht
      cases ht
    | inspected hfinal =>
      obtain ⟨hact, _⟩ := workOn_eq_some_iff.mp hwork.symm
      obtain ⟨hact', _⟩ := workOn_eq_some_iff.mp hwork'.symm
      obtain ⟨-, rfl⟩ := outcome_of_inspect hs hact hc hact'
      obtain ⟨k, htable⟩ := h.tableStays _ hc
      obtain ⟨hfields, hsaved⟩ := inspectedOutcome_of_table (t := { table with expectedTasks := k })
        hs h.planned htable hcache.isManagedTable hcache.saved hcache.type hcache.key
      exact .inspected hfields hfinal (hsaved.trans (Asset.showsWebMap_iff k))
  | inspected hfields hfinal hsaved =>
    cases hsteps with
    | stays => exact .inspected hfields hfinal hsaved
    | reported ht =>
      obtain ⟨_, ht, _⟩ := ht
      cases ht
    | settled =>
      obtain ⟨hact, hsubject⟩ := workOn_eq_some_iff.mp hwork.symm
      have hended := workOn_eq_none_iff.mp hwork'.symm
      obtain ⟨log, hsettled⟩ := asset_of_settle hs hact (fun hact' => hended _ hact' hsubject) hc
        rfl hcache.pending hfields hc'
      cases hsettled
      exact .settled hfinal hsaved
  | settled hfinal hsaved =>
    cases hsteps with
    | stays => exact .settled hfinal hsaved
    | reported ht =>
      obtain ⟨_, ht, _⟩ := ht
      cases ht

theorem TendsTileCache.handle (h : o.TendsTileCache n table cache answer) (hs : o.Sound)
    (hcache : IsTileCacheOf cache table) (hd : (o.handle e).world.ids.Distinct) :
    (o.handle e).TendsTileCache n table cache answer := by
  have hd' : (o.after [e]).world.ids.Distinct := hd
  -- a cache that is there now was there before
  have hbefore : ∀ {c : Asset}, (o.handle e).world.store.assets.get? cache.id = some c →
      ∃ b, o.world.store.assets.get? cache.id = some b :=
    fun hc => exists_of_after hs hd' h.watches.drawn hc
  obtain ⟨p, hp⟩ := h.watchesTable
  refine ⟨h.watches.handle hs e hd, ?_, ?_, h.planned.handle hs hd, p, hp.handle hs e hd⟩
  · intro v' hv'
    obtain ⟨b, hb⟩ := hbefore (view?_eq_some_iff.mp hv').1
    exact h.phase_handle hs hcache hd (view?_of_asset hb n) hv'
  · intro c hc
    obtain ⟨b, hb⟩ := hbefore hc
    obtain ⟨k, htable⟩ := h.tableStays b hb
    have hdefault := (h.planned _ _ htable).isDefault_iff.mpr
      (Asset.isDatabase_of_isManagedTable hcache.isManagedTable)
    have hkey : b.key = table.key := by
      have hphase := h.phase _ (view?_of_asset hb n)
      generalize o.world.store.tasksOf cache.id = ts, o.workOn cache.id n = work at hphase
      cases hphase <;> exact hcache.key
    have hfinal : table.status.isTerminal = true := by
      rw [hcache.saved]
      rfl
    obtain ⟨a, ha⟩ := default_stays hs hd htable hdefault hb hkey hc
    obtain ⟨k', rfl⟩ := asset_of_final hp hs hd' htable hfinal ha
    exact ⟨k', ha⟩

theorem TendsTileCache.after (h : o.TendsTileCache n table cache answer) (hs : o.Sound)
    (hcache : IsTileCacheOf cache table) (hd : (o.after es).world.ids.Distinct) :
    (o.after es).TendsTileCache n table cache answer :=
  after_induction (p := fun o => o.TendsTileCache n table cache answer) hs hd h
    fun _ _ hs hd h => h.handle hs hcache hd

/-! ## Registrations -/

/-- The step of a piece that registers a tile cache. -/
theorem register_advance (hs : o.Sound)
    (hwork : o.workAt n = some (.register table (.answer answer)))
    (hd : (o.handle (.advance n)).world.ids.Distinct) :
    o.world.store.assets.get? (o.world.tileCacheOf table).id = none ∧ ∃ cache?,
      o.world.Registration table cache? (o.handle (.advance n)).world ∧
        (o.handle (.advance n)).workAt n = cache?.map (.inspect · (.answer answer)) := by
  rcases hr : (Activity.register table (.answer answer)).step.run o.world with ⟨r, w'⟩
  obtain ⟨hworld, hrest, _⟩ := takeStep_self hwork hr
  rw [← advance_of_unlocked hwork rfl] at hworld hrest
  change (o.handle (.advance n)).world = w' at hworld
  have hids : w'.ids = o.world.withAssetDrawn.ids := by
    rw [← Activity.register_step_ids o.world table answer, hr]
  have hnew : ¬ o.world.ids.HasDrawnAsset (o.world.tileCacheOf table).id := by
    refine (handle_extends o (.advance n)).not_hasDrawnAsset hd ⟨_, Nat.le_refl _, ?_, rfl⟩
    rw [hworld, hids]
    exact Nat.lt_succ_self _
  have hnone : o.world.store.assets.get? (o.world.tileCacheOf table).id = none :=
    Option.eq_none_iff_forall_ne_some.mpr fun a ha => hnew (hs.world.asset _ a ha)
  obtain ⟨cache?, w₁, hregistration, hstep⟩ := Activity.register_step o.world table answer hnone
  obtain ⟨rfl, rfl⟩ := Prod.mk.inj (hr.symm.trans hstep)
  refine ⟨hnone, cache?, by rw [hworld]; exact hregistration, hrest.trans ?_⟩
  cases cache? <;> rfl

theorem store_of_registration {w w' : World} (h : w.Registration table (some cache) w') :
    cache = w.tileCacheOf table ∧ w'.store = w.store.fileAsset cache := by
  cases h
  exact ⟨rfl, rfl⟩

theorem asset_of_registration {w w' : World} (h : w.Registration table (some cache) w') :
    w'.store.assets.get? cache.id = some cache := by
  rw [(store_of_registration h).2]
  exact Directory.get?_insert_self _ _ _

/-- From the step that files the tile cache of a table the piece tends it. -/
theorem tends_of_register (hs : o.Sound) (hplanned : o.HasPlanned) {p : Nat} {k : Option UInt32}
    (hw : o.Watches table.id p)
    (htable : o.world.store.assets.get? table.id = some { table with expectedTasks := k })
    (hd : (o.handle (.advance n)).world.ids.Distinct)
    (hnone : o.world.store.assets.get? cache.id = none)
    (hregistration : o.world.Registration table (some cache) (o.handle (.advance n)).world)
    (hinspects : (o.handle (.advance n)).workAt n = some (.inspect cache (.answer answer))) :
    (o.handle (.advance n)).TendsTileCache n table cache answer := by
  obtain ⟨ops, he, hh⟩ := handle_cases hs (.advance n) hd
  have hcache := asset_of_registration hregistration
  have hne : table.id ≠ cache.id := by
    intro hid
    rw [hid, hnone] at htable
    cases htable
  have htable' : (o.handle (.advance n)).world.store.assets.get? table.id =
      some { table with expectedTasks := k } := by
    rw [(store_of_registration hregistration).2]
    exact (Directory.get?_insert_of_ne hne.symm _ _).trans htable
  obtain ⟨op, hop, c, hfiles, _⟩ := he.store.exists_files_of_none hs.world.wellFormed hnone hcache
  have hplanned' := hplanned.handle hs hd
  have hw' := hw.handle hs (.advance n) hd
  generalize o.handle (.advance n) = o' at *
  cases hh with
  | idled => cases hop
  | stepped _ hm hwork =>
    obtain ⟨_, goal, _, rfl, rfl⟩ := hm.files hs.world.wellFormed hop hfiles
    rw [hwork, if_pos rfl] at hinspects
    cases hinspects
    obtain ⟨_, hwatches, hview⟩ := view_of_files hs he hd rfl rfl hwork
    refine ⟨hwatches, fun v hv => ?_, fun _ _ => ⟨k, htable'⟩, hplanned', p, hw'⟩
    obtain rfl := Option.some.inj (hview.symm.trans hv)
    exact .filed

/-! ## The fate of a tile cache -/

/-- A tile cache is settled: it is saved if its table shows geometries for web maps, and has failed
otherwise. It has no tasks. -/
structure SettlesTileCache (o : Orchestrator) (table cache : Asset) (status : Status)
    (log : ChangeLog) : Prop where
  stored : o.world.store.assets.get? cache.id =
    some { cache with status := status, log := log, expectedTasks := some 0 }
  final : status.isTerminal = true
  saved_iff : status = .saved ↔ table.ShowsWebMap
  tasks : o.world.store.tasksOf cache.id = []

/-- Once the piece that has filed it has ended, a tile cache is settled. -/
theorem TendsTileCache.settles (h : o.TendsTileCache n table cache answer)
    (hended : o.workAt n = none) {c : Asset} (hc : o.world.store.assets.get? cache.id = some c) :
    ∃ status log, o.SettlesTileCache table cache status log := by
  have hphase := h.phase _ (view?_of_asset hc n)
  rw [workOn_of_ended hended] at hphase
  generalize hts : o.world.store.tasksOf cache.id = ts at hphase
  cases hphase with
  | settled hfinal hsaved => exact ⟨_, _, hc, hfinal, hsaved, hts⟩

/-! ## The end of a piece -/

/-- What is left after a step takes fewer steps. -/
theorem rank_of_rest {w w' : World} {a rest : Activity} {r : Except Error Next}
    (hr : a.step.run w = (r, w')) (hrest : Next.rest? r = some rest) : rest.rank < a.rank := by
  rcases r with e | (b | answer)
  · cases hrest
  · cases hrest
    exact a.step_gives w _ w' hr
  · cases hrest

/-- How many steps a piece has left at most. -/
def HasStepsLeft (o : Orchestrator) (n steps : Nat) : Prop :=
  ∀ a, o.workAt n = some a → a.rank ≤ steps

theorem HasStepsLeft.handle {steps : Nat} (h : o.HasStepsLeft n steps)
    (hn : n < o.background.started) (e : Event) : (o.handle e).HasStepsLeft n steps := by
  intro b hb
  by_cases hadvance : e = .advance n
  swap
  · exact h b ((handle_sameAt hadvance hn).workAt.symm.trans hb)
  subst hadvance
  rcases o.advance_self n with ⟨a, r, ha, hr, hwork, _⟩ | ⟨_, hwork, _⟩
  · exact Nat.le_trans (Nat.le_of_lt (rank_of_rest hr (hwork.symm.trans hb))) (h a ha)
  · exact h b (hwork.symm.trans hb)

theorem HasStepsLeft.after {steps : Nat} (h : o.HasStepsLeft n steps)
    (hn : n < o.background.started) (es : List Event) : (o.after es).HasStepsLeft n steps := by
  induction es generalizing o with
  | nil => exact h
  | cons e es ih =>
    exact ih (h.handle hn e) (Nat.lt_of_lt_of_le hn (o.started_handle_le e))

theorem IsUnlocked.handle_advance (h : o.IsUnlocked) (n : Nat) : (o.advance n).IsUnlocked := by
  cases ha : o.workAt n with
  | some a =>
    intro x
    rw [h.advance ha, locks_takeStep]
    exact h x
  | none =>
    have hpiece : o.background.pieces.get? n = none := Option.map_eq_none_iff.mp ha
    intro x
    unfold Orchestrator.advance
    rw [hpiece]
    exact h x

/-- While nobody holds a lock a piece ends with the steps that it has left. -/
theorem HasStepsLeft.ends {steps : Nat} (h : o.HasStepsLeft n steps) (hunlocked : o.IsUnlocked) :
    (o.after (List.replicate steps (.advance n))).workAt n = none := by
  induction steps generalizing o with
  | zero =>
    refine Option.eq_none_iff_forall_ne_some.mpr fun a ha => ?_
    exact absurd (h a ha) (Nat.not_le.mpr a.rank_pos)
  | succ steps ih =>
    rw [List.replicate_succ, after_cons]
    refine ih (o := o.advance n) (fun b hb => ?_) (hunlocked.handle_advance n)
    cases ha : o.workAt n with
    | none =>
      rw [(advance_of_none ha).2.1] at hb
      cases hb
    | some a =>
      rcases hr : a.step.run o.world with ⟨r, w'⟩
      obtain ⟨_, hwork, _⟩ := takeStep_self ha hr
      rw [hunlocked.advance ha] at hb
      have hrank := rank_of_rest hr (hwork.symm.trans hb)
      have hle := h a ha
      omega

/-! ## Runs -/

/-- How a piece registers the tile cache of a table, in its next step and with the events after
it. -/
structure RegistersTileCache (o : Orchestrator) (es : List Event) (n : Nat) (table : Asset)
    (cache? : Option Asset) : Prop where
  registration : o.world.Registration table cache? (o.advance n).world
  /-- A cache that was filed is looked at next; else the piece has ended. -/
  inspects : ∃ answer, (o.advance n).workAt n = cache?.map (.inspect · (.answer answer))
  /-- Once the piece has ended the cache is settled, unless it was deleted or its table was deleted
  before. -/
  settles : ∀ cache ∈ cache?, ((o.advance n).after es).workAt n = none →
    (∃ a, o.world.store.assets.get? table.id = some a) →
    ¬ (o.advance n).DeletesIn es (.asset cache.id) →
      ∃ status log, ((o.advance n).after es).SettlesTileCache table cache status log

/-- In a run the tile caches of tables are registered as their options ask for. -/
structure RegistersTileCaches (o : Orchestrator) (es : List Event) : Prop where
  /-- A managed table is saved in the step of a piece, which files nothing. If the options of the
  table ask for a tile cache the piece goes on to register it; else it has ended. -/
  begins : ∀ es₁ e es₂ table, es = es₁ ++ e :: es₂ → (o.after es₁).Saves e table →
    ∃ n answer, e = .advance n ∧
      (o.after (es₁ ++ [e])).world.store.assets.keys = (o.after es₁).world.store.assets.keys ∧
      (o.after (es₁ ++ [e])).workAt n =
        if table.wantsTileCache = true then some (.register table (.answer answer)) else none
  /-- The table stays what it is, and saved, and so does its version, unless it is deleted. -/
  stays : ∀ es₁ e es₂ es₃ table, es = es₁ ++ e :: es₂ ++ es₃ → (o.after es₁).Saves e table →
    ¬ (o.after (es₁ ++ [e])).DeletesIn es₂ (.asset table.id) →
      (∃ count, (o.after (es₁ ++ e :: es₂)).world.store.assets.get? table.id =
        some { table with expectedTasks := count }) ∧
      ∃ v, (o.after (es₁ ++ e :: es₂)).world.store.versions.get? table.key = some v ∧
        v.status = .saved
  /-- If a tile cache is asked for it is registered before the piece ends. -/
  registers : ∀ es₁ n es₂ table, es = es₁ ++ .advance n :: es₂ →
    (o.after es₁).Saves (.advance n) table → table.wantsTileCache = true →
    (o.after es).workAt n = none → ∃ es₃ es₄ cache?, es₂ = es₃ ++ .advance n :: es₄ ∧
      (o.after (es₁ ++ .advance n :: es₃)).RegistersTileCache es₄ n table cache?
  /-- While nobody holds a lock three more steps end the piece. -/
  ends : ∀ es₁ n es₂ table, es = es₁ ++ .advance n :: es₂ →
    (o.after es₁).Saves (.advance n) table → (o.after es).IsUnlocked →
    ((o.after es).after (List.replicate 3 (.advance n))).workAt n = none
  /-- A step files no assets but the tile caches of tables, and these as they should be. -/
  only : ∀ es₁ n es₂ x b, es = es₁ ++ .advance n :: es₂ →
    (o.after es₁).world.store.assets.get? x = none →
    (o.after (es₁ ++ [.advance n])).world.store.assets.get? x = some b →
    ∃ table goal, (o.after es₁).workAt n = some (.register table goal) ∧
      b = (o.after es₁).world.tileCacheOf table
  /-- A tile cache is registered only for a table that the piece has saved and that asks for one. -/
  caused : ∀ es₁ es₂ n table goal, es = es₁ ++ es₂ →
    (o.after es₁).workAt n = some (.register table goal) →
    ∃ es₃ es₄, es₁ = es₃ ++ .advance n :: es₄ ∧ (o.after es₃).Saves (.advance n) table ∧
      table.wantsTileCache = true
  /-- For each table there is one such step at most. -/
  once : ∀ es₁ n es₂ es₃ m es₄ table table' goal goal', es = es₁ ++ .advance n :: es₂ →
    es = es₃ ++ .advance m :: es₄ → (o.after es₁).workAt n = some (.register table goal) →
    (o.after es₃).workAt m = some (.register table' goal') → table.id = table'.id → es₁ = es₃
  /-- No piece submits jobs for a dynamic tile cache. -/
  jobless : ∀ es₁ es₂ n asset jobs ids goal, es = es₁ ++ es₂ →
    (o.after es₁).workAt n = some (.submit asset jobs ids goal) →
    asset.type ≠ .dynamicVectorTileCache
  /-- The cluster accepts jobs for other assets only. -/
  accepts : ∀ es₁ e es₂, es = es₁ ++ e :: es₂ →
    (o.after (es₁ ++ [e])).world.cluster.submitted ≠ (o.after es₁).world.cluster.submitted →
    ∃ n asset job id, e = .advance n ∧ (o.after es₁).Accepts n asset job id ∧
      asset.type ≠ .dynamicVectorTileCache

section

variable {settings : Settings} {now : Timestamp} {ids : IdSupply} {es₁ es₂ es₃ : List Event}
  {goal : Goal}

/-- What is true before and after an event in the middle of a run. -/
theorem usual_at (hd : ((initial settings now ids).after es).world.ids.Distinct)
    (hes : es = es₁ ++ e :: es₂) :
    ((initial settings now ids).after es₁).Sound ∧
      ((initial settings now ids).after es₁).HasUsualWork ∧
      ((initial settings now ids).after es₁).HasPlanned ∧
      (((initial settings now ids).after es₁).handle e).world.ids.Distinct ∧
      (((initial settings now ids).after es₁).handle e).after es₂ =
        (initial settings now ids).after es := by
  obtain ⟨hs, hd', _⟩ := settles_at (initial_sound settings now ids) hd hes
  have hd₀ := (handle_extends _ e).distinct hd'
  refine ⟨hs, hasUsualWork_after hd₀, hasPlanned_after hd₀, hd', ?_⟩
  rw [hes, after_append, after_cons]

/-- One piece at most is about a table that was saved. -/
theorem Saves.exists_watches (h : ((initial settings now ids).after es₁).Saves e table)
    (hd : ((initial settings now ids).after (es₁ ++ e :: es₂)).world.ids.Distinct) :
    ∃ p, (((initial settings now ids).after es₁).handle e).Watches table.id p := by
  obtain ⟨hs, _, _, hd', _⟩ := usual_at hd rfl
  obtain ⟨htable, _⟩ := h.before hs hd'
  rw [← after_concat] at hd' htable ⊢
  obtain ⟨p, _, _, hw, _⟩ := exists_staged hd' htable
  exact ⟨p, hw⟩

/-- A table that was saved is as it was then. -/
theorem Saves.eq_of_stored (h : ((initial settings now ids).after es₁).Saves e table)
    (hd : ((initial settings now ids).after (es₁ ++ e :: es₂)).world.ids.Distinct) {a : Asset}
    (ha : ((initial settings now ids).after (es₁ ++ e :: es₂)).world.store.assets.get? table.id =
      some a) : ∃ count, a = { table with expectedTasks := count } := by
  obtain ⟨p, hw⟩ := h.exists_watches hd
  obtain ⟨hs, _, _, hd', hend⟩ := usual_at hd rfl
  rw [← hend] at hd ha
  exact asset_of_final hw (hs.handle e hd') hd (h.before hs hd').1 (by rw [h.status]; rfl) ha

/-- A piece registers a tile cache in its step. -/
theorem exists_registersTileCache (hd : ((initial settings now ids).after es).world.ids.Distinct)
    (hes : es = es₁ ++ .advance n :: es₂)
    (hwork : ((initial settings now ids).after es₁).workAt n = some (.register table goal)) :
    ∃ cache?, ((initial settings now ids).after es₁).RegistersTileCache es₂ n table cache? := by
  obtain ⟨hs, hu, hplanned, hd', hend⟩ := usual_at hd hes
  obtain ⟨es₃, es₄, rfl, hsaves, _, _⟩ := exists_saves ((handle_extends _ _).distinct hd') hwork
  have hd₀ := (handle_extends _ _).distinct hd'
  obtain ⟨answer, rfl⟩ := hu n _ hwork
  obtain ⟨hnone, cache?, hregistration, hinspects⟩ := register_advance hs hwork hd'
  refine ⟨cache?, hregistration, ⟨answer, hinspects⟩, ?_⟩
  rintro cache hcache hended ⟨a, ha⟩ hno
  obtain rfl : cache? = some cache := hcache
  have hof := (store_of_registration hregistration).1
  obtain ⟨count, rfl⟩ := hsaves.eq_of_stored hd₀ ha
  obtain ⟨p, _, _, hw, _⟩ := exists_staged hd₀ ha
  rw [← hof] at hnone
  have htends := tends_of_register hs hplanned hw ha hd' hnone hregistration hinspects
  have hs' := hs.handle _ hd'
  rw [← hend] at hd
  obtain ⟨c, hc⟩ := exists_asset hs' hd (asset_of_registration hregistration) hno
  refine (htends.after hs' ?_ hd).settles hended hc
  rw [hof]
  exact ⟨hsaves.isManagedTable, hsaves.status, rfl, rfl, rfl⟩

end

/-- The tile caches of tables are registered as their options ask for, in every run. -/
theorem initial_registersTileCaches {settings : Settings} {now : Timestamp} {ids : IdSupply}
    {es : List Event} (hd : ((initial settings now ids).after es).world.ids.Distinct) :
    (initial settings now ids).RegistersTileCaches es := by
  constructor
  case begins =>
    intro es₁ e es₂ table hes hsaves
    obtain ⟨hs, hu, _, hd', _⟩ := usual_at hd hes
    rw [after_concat]
    exact hsaves.begins hs hu hd'
  case stays =>
    intro es₁ e es₂ es₃ table hes hsaves hno
    have hd₂ := distinct_of_append (hes ▸ hd)
    obtain ⟨p, hw⟩ := hsaves.exists_watches hd₂
    obtain ⟨hs, _, hplanned, hd', hend⟩ := usual_at hd₂ rfl
    rw [after_concat] at hno
    rw [← hend] at hd₂ ⊢
    exact hsaves.stays hs hw (hplanned.handle hs hd') hd₂ hno
  case registers =>
    intro es₁ n es₂ table hes hsaves hwants hended
    obtain ⟨hs, hu, _, hd', hend⟩ := usual_at hd hes
    obtain ⟨m, answer, hm, _, hwork⟩ := hsaves.begins hs hu hd'
    cases hm
    rw [if_pos hwants] at hwork
    rw [← hend] at hended
    obtain ⟨es₃, es₄, rfl, hregister⟩ := exists_step (hs.handle _ hd')
      (by rw [hend]; exact hd) hwork (by rw [hended]; nofun)
    rw [← after_cons, ← after_append] at hregister
    have hes' : es = (es₁ ++ .advance n :: es₃) ++ .advance n :: es₄ := by
      rw [hes, List.append_assoc, List.cons_append]
    obtain ⟨cache?, hcache⟩ := exists_registersTileCache hd hes' hregister
    exact ⟨es₃, es₄, cache?, rfl, hcache⟩
  case ends =>
    intro es₁ n es₂ table hes hsaves hunlocked
    obtain ⟨hs, hu, _, hd', hend⟩ := usual_at hd hes
    obtain ⟨m, answer, hm, _, hwork⟩ := hsaves.begins hs hu hd'
    cases hm
    refine HasStepsLeft.ends ?_ hunlocked
    rw [← hend]
    refine HasStepsLeft.after (fun a ha => ?_)
      (Nat.lt_of_lt_of_le (hsaves.started hs hd') (started_handle_le _ _)) es₂
    rw [hwork] at ha
    split at ha
    · cases ha
      exact Nat.le_refl 3
    · cases ha
  case only =>
    intro es₁ n es₂ x b hes hnone hb
    obtain ⟨hs, _, _, hd', _⟩ := usual_at hd hes
    rw [after_concat] at hb
    rcases advance_self ((initial settings now ids).after es₁) n with
      ⟨act, r, hact, hr, _⟩ | ⟨hworld, _⟩
    · obtain ⟨table, goal, rfl, hcache⟩ :=
        Activity.exists_ofTable (hs.suits n act hact) hs.world hr hd' hnone hb
      rw [TileCache.ofTable_tileCacheOf] at hcache
      exact ⟨table, goal, hact, (Except.ok.inj hcache).symm⟩
    · change ((initial settings now ids).after es₁ |>.advance n).world.store.assets.get? x = _ at hb
      rw [hworld, hnone] at hb
      cases hb
  case caused =>
    intro es₁ es₂ n table goal hes hwork
    obtain ⟨es₃, es₄, rfl, hsaves, hwants, _⟩ := exists_saves (distinct_of_append (hes ▸ hd)) hwork
    exact ⟨es₃, es₄, rfl, hsaves, hwants⟩
  case once =>
    intro es₁ n es₂ es₃ m es₄ table table' goal goal' hes hes' hwork hwork' hid
    exact register_unique hd hes hes' hwork hwork' hid
  case jobless =>
    intro es₁ es₂ n asset jobs ids goal hes hwork
    exact (hasUsualWork_after (distinct_of_append (hes ▸ hd)) n _ hwork).1
  case accepts =>
    intro es₁ e es₂ hes hchanged
    obtain ⟨hs, hu, _, hd', _⟩ := usual_at hd hes
    rw [after_concat] at hchanged
    obtain ⟨n, asset, job, id, rfl, haccepts⟩ := (handle_accepts hs e hd').resolve_left hchanged
    obtain ⟨jobs, ids, goal, hwork⟩ := haccepts.work
    exact ⟨n, asset, job, id, rfl, haccepts, (hu n _ hwork).1⟩

/-! ## Two runs -/

namespace Sample

/-- The last job of a table of places succeeds, and its tile cache is filed. -/
def placesCached : List Event :=
  placesExpected ++ placesReported

/-- A caller has taken the place of the tile cache before. -/
def placeTaken : List Event :=
  placesExpected ++ .command createCache :: delivered 5 3 .success ++ [.advance 5]

end Sample

set_option maxRecDepth 100000 in
theorem placesCached_registersTileCaches : ∃ es es', es = Sample.placesCached ∧
    es' = Sample.placeTaken ∧ (Sample.start.after es).world.ids.Distinct ∧
      (Sample.start.after es').world.ids.Distinct ∧
      [es, es'].map (fun es => (Sample.start.settlements es).map fun a =>
        (a.type, a.status, a.wantsTileCache)) =
          [[(.geoDatabaseTable, .saved, true)], [(.geoDatabaseTable, .saved, true)]] ∧
      [es, es'].map (fun es => Sample.assets (Sample.start.after es)) =
        [[(.geoDatabaseTable, .saved, ["geom_wm"]),
            (.dynamicVectorTileCache, .pending, ["geom_wm"])],
          [(.geoDatabaseTable, .saved, ["geom_wm"]), (.dynamicVectorTileCache, .pending, [])]] ∧
      [es, es'].map (fun es => Sample.logLengths (Sample.start.after es)) =
        [[[1], [1, 0], [2, 2, 2, 2]], [[2], [1, 0], [2, 2, 2, 2]]] ∧
      ((Sample.start.after es').workAt 5).isNone = true ∧
      Sample.start.RegistersTileCaches es ∧ Sample.start.RegistersTileCaches es' := by
  have hd : (Sample.start.after Sample.placesCached).world.ids.Distinct := by decide +kernel
  have hd' : (Sample.start.after Sample.placeTaken).world.ids.Distinct := by decide +kernel
  refine ⟨_, _, rfl, rfl, hd, hd', ?_, ?_, ?_, ?_, initial_registersTileCaches hd,
    initial_registersTileCaches hd'⟩
  · decide +kernel
  · decide +kernel
  · decide +kernel
  · decide +kernel

end Orchestrator

end GeoAssets
