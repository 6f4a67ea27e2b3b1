import GeoAssets.Proofs.Run.Inspection

/-!
# Two ways to a tile cache

The dynamic tile cache of a saved table is registered with the table, or a caller asks for it with
empty options. Both ways file one asset at the same place and settle it with the same outcome, so
that they agree in everything but the metadata: the cache that is registered takes the fields of the
table and all zoom levels, and the one that is asked for has no metadata
(`Orchestrator.MakesTileCaches`).
-/

namespace GeoAssets

/-! ## Plans without jobs -/

theorem JobGraph.ofJobs_nil : ofJobs [] = .ok empty := by
  have harranged := empty.arranged
  have hrepeated : firstRepeated? [] (([] : List Job).map (·.name)) = none := rfl
  have hunknown : firstUnknownParent? [] = none := rfl
  unfold ofJobs
  rw [hrepeated]
  dsimp only
  rw [hunknown]
  dsimp only
  split
  · next h =>
    cases h.symm.trans harranged
    rfl
  · next hne h =>
    cases h.symm.trans harranged
    exact absurd rfl hne

/-- A dynamic tile cache takes no jobs. -/
theorem Plan.build_of_dynamicTiles {b : Brief} {t : DynamicTiles}
    (htype : b.asset.type = .dynamicVectorTileCache)
    (hoptions : b.asset.options = some (.dynamicTiles t))
    (hvalid : (CreationOptions.dynamicTiles t).validate = .ok ()) : build b = .ok .empty := by
  have hfits : require ((CreationOptions.dynamicTiles t).fits b.asset.type)
      (Location.misfit (.dynamicTiles t) b.asset.type) = .ok () := by
    rw [htype]
    rfl
  have hfanIn : checkFanIn b.settings .empty = .ok () :=
    require_eq_ok_iff.mpr (decide_eq_true (Nat.zero_le b.settings.maxParents.toNat))
  simp only [build, bind_eq_ok_iff, orElseFail_eq_ok_iff]
  exact ⟨_, hoptions, _, hvalid, _, hfits, _, rfl, _, JobGraph.ofJobs_nil, _, hfanIn, rfl⟩

/-! ## Settling -/

/-- An activity that settles an asset without registering a tile cache ends with it. -/
theorem Activity.run_settle {w : World} {c : Asset} {q : Outcome} (goal : Goal)
    (hregisters : q.registersTileCache = false) :
    ((settle c q goal).run w).2 = (w.settle c q).2 := by
  have hstep := settle_step w c q goal
  cases hnext : Next.follow goal (w.settle c q).1 with
  | finished answer =>
    rw [hnext] at hstep
    exact congrArg Prod.snd (run_of_finished hstep)
  | goOn rest =>
    have hrest : Next.rest? (.ok (.follow goal (w.settle c q).1)) = some rest := by
      rw [hnext]
      rfl
    obtain ⟨table, answer, rfl⟩ := registers_follow goal (w.settle c q).1 rest hrest
    rw [← registersTileCache_of_settle (settled_of_follow hrest)] at hregisters
    cases hregisters

/-- A pending tile cache that is looked at is settled with what is found. -/
theorem Activity.asset_of_run_inspect {w : World} {c : Asset} (goal : Goal)
    (hc : w.store.assets.get? c.id = some c) (hpending : c.status = .pending)
    (htype : c.type = .dynamicVectorTileCache) :
    ((inspect c goal).run w).2.store.assets.get? c.id =
      some { c with
        status := (inspectedOutcome w c).status
        expectedTasks := some 0
        log := c.log ++ w.settlementLog (inspectedOutcome w c) } := by
  obtain ⟨hfields, hregisters⟩ : (inspectedOutcome w c).attachesFields = false ∧
      (inspectedOutcome w c).registersTileCache = false := by
    rw [inspectedOutcome, if_pos htype]
    exact Outcome.ofTileCache_adds_nothing htype _
  rw [run_of_goOn (inspect_step goal hc), run_settle goal hregisters]
  exact World.asset_of_settle (b := { c with expectedTasks := some 0 }) rfl
    (Directory.get?_insert_self _ _ _) hpending hfields

/-! ## The two ways -/

namespace World

/-- The cache that is there once the registration of a table has run to its end. -/
def registeredCache? (w : World) (table : Asset) (goal : Goal) : Option Asset :=
  ((Activity.register table goal).run w).2.store.assets.get? (w.ids.asset w.ids.assetsDrawn)

/-- The cache that is there once a caller has asked for one with empty options, and its pipeline has
run to its end. -/
def requestedCache? (w : World) (k : VersionKey) : Option Asset :=
  match (Command.createAsset k .dynamicVectorTileCache (.object [])).flow.run w with
  | (.ok (some work), w') =>
    (work.activity.run w').2.store.assets.get? (w.ids.asset w.ids.assetsDrawn)
  | _ => none

/-- A managed table is saved, and the place of its tile cache is free. -/
structure CanCache (w : World) (table : Asset) : Prop where
  stored : w.store.assets.get? table.id = some table
  isManagedTable : table.isManagedTable = true
  saved : table.status = .saved
  free : w.store.places.get? (w.tileCacheOf table).uri = none

/-- The tile cache of a table with some metadata, as it is filed. -/
def filedCache (w : World) (table : Asset) (metadata : AssetMetadata) : Asset :=
  { w.tileCacheOf table with metadata }

/-- The outcome for the tile cache of a table. -/
def cacheOutcome (w : World) (table : Asset) : Outcome :=
  .ofTileCache w.now (w.tileCacheOf table) (some table)

/-- The tile cache of a table with some metadata, as the work on it leaves it. -/
def settledCache (w : World) (table : Asset) (metadata : AssetMetadata) : Asset :=
  { w.filedCache table metadata with
    status := (w.cacheOutcome table).status
    expectedTasks := some 0
    log := w.settlementLog (w.cacheOutcome table) }

variable {w : World} {table : Asset}

/-- What is planned for a tile cache with empty options. -/
theorem planDerived_filedCache (w : World) (table : Asset) :
    w.planDerived table.key .dynamicVectorTileCache (.object []) =
      .ok (w.filedCache table {}, .empty) := by
  have hbuild := Plan.build_of_dynamicTiles (t := {})
    (b := ⟨w.settings, w.filedCache table {}, Request.defaultFields (w.store.assetsOf table.key)⟩)
    rfl rfl rfl
  unfold planDerived
  simp only [Request.planDerived, bind_eq_ok_iff]
  exact ⟨.dynamicTiles {}, rfl, _, rfl, _, hbuild, rfl⟩

/-! ## Either way -/

namespace CanCache

section

variable (hw : w.Sound) (hplanned : ∀ x a, w.store.assets.get? x = some a → a.IsPlanned w.settings)
  (hnew : w.store.assets.get? (w.ids.asset w.ids.assetsDrawn) = none)

include hw hnew

theorem createAsset (h : w.CanCache table) (metadata : AssetMetadata) :
    w.store.createAsset (w.filedCache table metadata) =
      .ok (w.store.fileAsset (w.filedCache table metadata)) := by
  obtain ⟨v, hv⟩ := hw.wellFormed.version_of_asset _ _ h.stored
  exact Store.createAsset_of_free (a := w.filedCache table metadata) hv hnew h.free rfl

include hplanned

/-- Once a cache was filed its tiles are rendered from the table. -/
theorem tableOf? (h : w.CanCache table) (metadata : AssetMetadata) :
    TileCache.tableOf? (w.store.fileAsset (w.filedCache table metadata)) table.key =
      some table := by
  have hdatabase := Asset.isDatabase_of_isManagedTable h.isManagedTable
  have hfiles : (w.store.fileAsset (w.filedCache table metadata)).assets =
      w.store.assets.insert (w.ids.asset w.ids.assetsDrawn) (w.filedCache table metadata) := rfl
  have hwf := (Store.Performs.createAsset ⟨rfl, rfl, rfl⟩
    (h.createAsset hw hnew metadata)).wellFormed hw.wellFormed
  have hne : table.id ≠ w.ids.asset w.ids.assetsDrawn := by
    intro hid
    rw [← hid, h.stored] at hnew
    cases hnew
  refine TileCache.tableOf?_eq_some hwf ?_ hdatabase h.saved ?_
  · rw [hfiles, Directory.get?_insert_of_ne hne.symm, h.stored]
  · intro y b hb hkey htype
    rw [hfiles, Directory.get?_insert] at hb
    split at hb
    · -- the cache is no table
      cases hb
      cases htype
    · exact hw.defaultsLead.unique _ _ _ _ hb h.stored ((hplanned y b hb).isDefault_iff.mpr htype)
        ((hplanned _ _ h.stored).isDefault_iff.mpr hdatabase) hkey

/-- What becomes of a cache that was filed does not depend on its metadata. -/
theorem settled (h : w.CanCache table) (goal : Goal) (metadata : AssetMetadata) :
    ((Activity.inspect (w.filedCache table metadata) goal).run { w.withAssetDrawn with
        store := w.store.fileAsset (w.filedCache table metadata) }).2.store.assets.get?
          (w.ids.asset w.ids.assetsDrawn) = some (w.settledCache table metadata) := by
  have htype : (w.filedCache table metadata).type = .dynamicVectorTileCache := rfl
  have houtcome : Activity.inspectedOutcome { w.withAssetDrawn with
      store := w.store.fileAsset (w.filedCache table metadata) } (w.filedCache table metadata) =
        w.cacheOutcome table := by
    rw [Activity.inspectedOutcome, if_pos htype]
    show Outcome.ofTileCache w.now (w.filedCache table metadata)
      (TileCache.tableOf? (w.store.fileAsset (w.filedCache table metadata)) table.key) = _
    rw [h.tableOf? hw hplanned hnew metadata]
    rfl
  have hsettled := Activity.asset_of_run_inspect (c := w.filedCache table metadata)
    (w := { w.withAssetDrawn with store := w.store.fileAsset (w.filedCache table metadata) }) goal
    (Directory.get?_insert_self _ _ _) rfl htype
  rw [houtcome] at hsettled
  exact hsettled

theorem registeredCache? (h : w.CanCache table) (goal : Goal) :
    w.registeredCache? table goal =
      some (w.settledCache table ⟨table.metadata.fields, some 0, some 22⟩) := by
  have hstep : (Activity.register table goal).step.run w = _ := Activity.register_step_filed goal
    (h.createAsset hw hnew ⟨table.metadata.fields, some 0, some 22⟩)
  unfold World.registeredCache?
  rw [Activity.run_of_goOn hstep]
  exact h.settled hw hplanned hnew goal ⟨table.metadata.fields, some 0, some 22⟩

theorem requestedCache? (h : w.CanCache table) :
    w.requestedCache? table.key = some (w.settledCache table {}) := by
  have hrun := Command.createAsset_run_of_planDerived (w.planDerived_filedCache table)
    (h.createAsset hw hnew {})
  have hactivity : (Work.pipeline (w.filedCache table {}) .empty).activity =
      .inspect (w.filedCache table {}) .pipeline := rfl
  unfold World.requestedCache?
  rw [hrun]
  dsimp only
  rw [hactivity]
  exact h.settled hw hplanned hnew .pipeline {}

end

/-- The cache is saved if the table shows geometries for web maps, and has failed otherwise. -/
theorem status (h : w.CanCache table) (metadata : AssetMetadata) :
    (w.settledCache table metadata).status.isTerminal = true ∧
      ((w.settledCache table metadata).status = .saved ↔ table.ShowsWebMap) :=
  ⟨(Outcome.ofTileCache_fits _ _ _).status, Outcome.ofTileCache_status
    (Asset.isDatabase_of_isManagedTable h.isManagedTable) h.saved⟩

end CanCache

end World

/-! ## Runs -/

/-- Two assets agree but for their ids and times. -/
structure Asset.AgreesWith (a b : Asset) : Prop where
  type : a.type = b.type
  uri : a.uri = b.uri
  options : a.options = b.options
  metadata : a.metadata = b.metadata
  status : a.status = b.status
  log : a.log.map LogEntry.bare = b.log.map LogEntry.bare

namespace Orchestrator

variable {o : Orchestrator} {n : Nat} {act : Activity}

/-- Both ways to a tile cache of a table lead to caches that agree. -/
def AgreesOnTileCaches (o : Orchestrator) : Prop :=
  ∀ table goal, o.world.CanCache table → ∃ c c', o.world.registeredCache? table goal = some c ∧
    o.world.requestedCache? table.key = some c' ∧ c.AgreesWith c'

/-- Both ways to a tile cache of a table lead to caches that agree but for their metadata. -/
structure MakesTileCaches (o : Orchestrator) : Prop where
  /-- The cache that is registered has the fields of the table and all zoom levels. -/
  registered : ∀ table goal, o.world.CanCache table → o.world.registeredCache? table goal =
    some (o.world.settledCache table ⟨table.metadata.fields, some 0, some 22⟩)
  /-- The cache that a caller asks for has no metadata. -/
  requested : ∀ table, o.world.CanCache table →
    o.world.requestedCache? table.key = some (o.world.settledCache table {})
  /-- Either is saved if the table shows geometries for web maps, and has failed otherwise. -/
  status : ∀ table metadata, o.world.CanCache table →
    (o.world.settledCache table metadata).status.isTerminal = true ∧
      ((o.world.settledCache table metadata).status = .saved ↔ table.ShowsWebMap)
  /-- While nobody holds a lock the steps of a piece of work are a run to its end. -/
  steps : o.IsUnlocked → ∀ n act, o.workAt n = some act →
    (o.after (List.replicate act.rank (.advance n))).world = (act.run o.world).2

/-- A piece that has ended does nothing more. -/
theorem world_of_ended (h : o.workAt n = none) (steps : Nat) :
    (o.after (List.replicate steps (.advance n))).world = o.world := by
  induction steps generalizing o with
  | zero => rfl
  | succ steps ih =>
    obtain ⟨hworld, hwork, _⟩ := advance_of_none h
    rw [List.replicate_succ, after_cons]
    exact (ih (o := o.advance n) hwork).trans hworld

/-- While nobody holds a lock a piece goes on to its end. -/
theorem IsUnlocked.world_after (h : o.IsUnlocked) (ha : o.workAt n = some act) {steps : Nat}
    (hsteps : act.rank ≤ steps) :
    (o.after (List.replicate steps (.advance n))).world = (act.run o.world).2 := by
  induction steps generalizing o act with
  | zero => exact absurd hsteps (Nat.not_le.mpr act.rank_pos)
  | succ steps ih =>
    rw [List.replicate_succ, after_cons]
    show ((o.advance n).after _).world = _
    rcases hr : act.step.run o.world with ⟨next, w⟩
    obtain ⟨hworld, hwork, _⟩ := takeStep_self ha hr
    rw [← h.advance ha] at hworld hwork
    rcases next with e | next
    · rw [world_of_ended hwork, act.run_of_error hr, hworld]
    cases next with
    | finished answer => rw [world_of_ended hwork, act.run_of_finished hr, hworld]
    | goOn rest =>
      have hrank : rest.rank < act.rank := act.step_gives o.world _ w hr
      rw [ih (h.handle_advance n) hwork (by omega), hworld, act.run_of_goOn hr]

section

variable {settings : Settings} {now : Timestamp} {ids : IdSupply} {es : List Event}
  {table : Asset}

/-- What is known of the world of a state in which one more id can be drawn. -/
theorem sound_of_drawn
    (hd : ((initial settings now ids).after es).world.withAssetDrawn.ids.Distinct) :
    ((initial settings now ids).after es).world.Sound ∧
      ((initial settings now ids).after es).HasPlanned ∧
      ((initial settings now ids).after es).world.store.assets.get?
        (((initial settings now ids).after es).world.ids.asset
          ((initial settings now ids).after es).world.ids.assetsDrawn) = none := by
  have hdraws := (World.Evolves.drawAsset ((initial settings now ids).after es).world).ids
  have hd' := hdraws.distinct hd
  have hs := ((initial_sound settings now ids).after hd').world
  refine ⟨hs, hasPlanned_after hd', Option.eq_none_iff_forall_ne_some.mpr fun a ha => ?_⟩
  exact hdraws.not_hasDrawnAsset hd ⟨_, Nat.le_refl _, Nat.lt_succ_self _, rfl⟩ (hs.asset _ a ha)

/-- In every state of every run both ways lead to caches that agree but for their metadata. -/
theorem initial_makesTileCaches
    (hd : ((initial settings now ids).after es).world.withAssetDrawn.ids.Distinct) :
    ((initial settings now ids).after es).MakesTileCaches := by
  obtain ⟨hs, hplanned, hnew⟩ := sound_of_drawn hd
  constructor
  case registered => exact fun table goal h => h.registeredCache? hs hplanned hnew goal
  case requested => exact fun table h => h.requestedCache? hs hplanned hnew
  case status => exact fun table metadata h => h.status metadata
  case steps => exact fun h n act ha => h.world_after ha (Nat.le_refl act.rank)

/-- Wherever a table can have a tile cache, the two ways disagree over the zoom levels. -/
theorem not_agreesOnTileCaches
    (hd : ((initial settings now ids).after es).world.withAssetDrawn.ids.Distinct)
    (h : ((initial settings now ids).after es).world.CanCache table) :
    ¬ ((initial settings now ids).after es).AgreesOnTileCaches := by
  obtain ⟨hs, hplanned, hnew⟩ := sound_of_drawn hd
  intro hagrees
  obtain ⟨c, c', hc, hc', hsame⟩ := hagrees table .pipeline h
  rw [h.registeredCache? hs hplanned hnew .pipeline] at hc
  rw [h.requestedCache? hs hplanned hnew] at hc'
  cases hc
  cases hc'
  cases congrArg AssetMetadata.minZoom hsame.metadata

end

/-! ## A state -/

namespace Sample

/-- A table of places is saved, and its tile cache has to be registered. -/
def placesSaved : List Event :=
  placesExpected ++ delivered 4 3 .success

set_option maxRecDepth 100000 in
theorem canCache_placesSaved : ∃ table, (start.after placesSaved).world.CanCache table ∧
    table.ShowsWebMap := by
  have hthere : ((start.after placesSaved).world.store.assets.get? (ids.asset 0)).any (fun table =>
      table.id = ids.asset 0 ∧ table.isManagedTable = true ∧ table.status = .saved ∧
        table.servesTiles = true ∧ (start.after placesSaved).world.store.places.get?
          ((start.after placesSaved).world.tileCacheOf table).uri = none) = true := by
    decide +kernel
  rw [Option.any_eq_true] at hthere
  obtain ⟨table, htable, h⟩ := hthere
  obtain ⟨hid, hmanaged, hsaved, hserves, hfree⟩ := of_decide_eq_true h
  rw [← hid] at htable
  exact ⟨table, ⟨htable, hmanaged, hsaved, hfree⟩,
    (Asset.servesTiles_iff (Asset.isDatabase_of_isManagedTable hmanaged) hsaved).mp hserves⟩

end Sample

set_option maxRecDepth 100000 in
theorem placesSaved_makesTileCaches : ∃ o, o = Sample.start.after Sample.placesSaved ∧
    o.world.withAssetDrawn.ids.Distinct ∧
      (∃ table, o.world.CanCache table ∧ table.ShowsWebMap) ∧ o.MakesTileCaches := by
  have hd : (Sample.start.after Sample.placesSaved).world.withAssetDrawn.ids.Distinct := by
    decide +kernel
  exact ⟨_, rfl, hd, Sample.canCache_placesSaved, initial_makesTileCaches hd⟩

set_option maxRecDepth 100000 in
/-- The cache of places that is registered has zoom levels, and the one that is asked for has
none. -/
theorem placesSaved_not_agreesOnTileCaches :
    ¬ (Sample.start.after Sample.placesSaved).AgreesOnTileCaches := by
  have hd : (Sample.start.after Sample.placesSaved).world.withAssetDrawn.ids.Distinct := by
    decide +kernel
  obtain ⟨table, htable, _⟩ := Sample.canCache_placesSaved
  exact not_agreesOnTileCaches hd htable

end Orchestrator

end GeoAssets
