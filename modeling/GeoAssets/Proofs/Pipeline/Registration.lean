import GeoAssets.Proofs.Pipeline.Reach
import GeoAssets.Proofs.Run.Places

/-!
# How a tile cache is registered

A managed table that is saved gives itself back, with the wish for a tile cache that its options
express (`World.settleByTasks_saves`). To register the cache is to file it if its place is free, and
to note in the log of the version that it is not (`World.Registration`). A cache that was filed is
settled at once, and its fate depends on what the table shows (`Asset.ShowsWebMap`).
-/

namespace GeoAssets

theorem Flow.run_updateStore_bind_error {α : Type} {f : Store → Except Error Store} {w : World}
    {e : Error} (h : f w.store = .error e) (g : Unit → Flow α) :
    (updateStore f >>= g).run w = (.error e, w) := by
  rw [run_bind, updateStore, run_ofRun, h]

/-- A new asset is filed beside the default one at a free place. -/
theorem Store.createAsset_of_free {s : Store} {a : Asset} {v : Version}
    (hversion : s.versions.get? a.key = some v) (hnew : s.assets.get? a.id = none)
    (hplace : s.places.get? a.uri = none) (hdefault : a.isDefault = false) :
    s.createAsset a = .ok (s.fileAsset a) := by
  unfold createAsset requirePlace
  rw [Directory.contains_iff.mpr ⟨v, hversion⟩, Directory.contains_eq_false_iff.mpr hnew,
    Directory.contains_eq_false_iff.mpr hplace, hdefault]
  rfl

/-! ## What is asked of tables -/

theorem AssetType.isTileCache_of_isDatabase {type : AssetType} (h : type.isDatabase = true) :
    type.isTileCache = false := by
  rcases eq_of_isDatabase h with rfl | rfl <;> rfl

theorem Asset.isDatabase_of_isManagedTable {a : Asset} (h : a.isManagedTable = true) :
    a.type.isDatabase = true := by
  rw [isManagedTable, Bool.and_eq_true] at h
  exact h.2

/-- The options of an asset ask for a dynamic tile cache. -/
def Asset.wantsTileCache (a : Asset) : Bool :=
  a.options.any (·.wantsTileCache)

/-- A table shows geometries for web maps: it has a column of them, and an index on this column. -/
structure Asset.ShowsWebMap (a : Asset) : Prop where
  column : ∃ f ∈ a.metadata.fields, f.name = "geom_wm"
  index : ∃ options, a.options = some options ∧ ⟨.gist, ["geom_wm"]⟩ ∈ options.indices

/-- A saved table serves tiles if it shows geometries for web maps. -/
theorem Asset.servesTiles_iff {a : Asset} (htype : a.type.isDatabase = true)
    (hsaved : a.status = .saved) : a.servesTiles = true ↔ a.ShowsWebMap := by
  have hcolumn : a.metadata.fields.any (·.name == webMapColumn) = true ↔
      ∃ f ∈ a.metadata.fields, f.name = "geom_wm" := by
    rw [List.any_eq_true]
    simp only [beq_iff_eq, webMapColumn]
  have hindex : ((a.options.map (·.indices)).getD []).any (· == ⟨.gist, [webMapColumn]⟩) = true ↔
      ∃ options, a.options = some options ∧ ⟨.gist, ["geom_wm"]⟩ ∈ options.indices := by
    rw [List.any_eq_true]
    simp only [beq_iff_eq, webMapColumn, exists_eq_right]
    cases a.options <;> simp
  rw [servesTiles, htype, hsaved]
  simp only [Bool.and_eq_true, hcolumn, hindex]
  constructor
  · rintro ⟨⟨_, hc⟩, hi⟩
    exact ⟨hc, hi⟩
  · rintro ⟨hc, hi⟩
    exact ⟨⟨⟨trivial, rfl⟩, hc⟩, hi⟩

/-- Tasks decide over pending assets only: the work has failed, or it has succeeded. -/
theorem Decision.finish_cases {time : Timestamp} {a : Asset} {ts : List Task} {o : Outcome}
    (h : ofTasks time a ts = .finish o) :
    a.status = .pending ∧ ∃ entry, o = .failed a entry ∨ o = .saved a entry := by
  unfold ofTasks at h
  split at h
  · cases h
  next hopen =>
  refine ⟨Status.isTerminal_eq_false_iff.mp (Bool.eq_false_iff.mpr hopen), ?_⟩
  split at h
  · cases h
    exact ⟨_, Or.inl rfl⟩
  split at h
  · cases h
  split at h
  · cases h
    exact ⟨_, Or.inr rfl⟩
  · cases h

namespace World

variable {w w' : World}

/-! ## Saving a table -/

/-- The tasks of an asset decide over no other asset. -/
theorem settleByTasks_of_ne {x y : AssetId} {a b : Asset} (hw : w.store.WellFormed) (hne : y ≠ x)
    (ha : w.store.assets.get? y = some a)
    (hb : (w.settleByTasks x).2.store.assets.get? y = some b) : b = a := by
  obtain ⟨ops, hdeciding, he⟩ := settleByTasks_cases hw (x := x) (Prod.eta _).symm
  rw [he.store.asset_of_noRequest hw (hdeciding.isRequest hw) ha hb]
  exact hdeciding.onAsset_of_ne hw hne a

/-- If its tasks decide over an asset, the asset is given back; a tile cache has to be registered if
it is a managed table that was saved and wants one. For a managed table that is all. -/
theorem settleByTasks_gives (hw : w.store.WellFormed) (x : AssetId) :
    ((w.settleByTasks x).1 = none ∧ (w.settleByTasks x).2 = w) ∨
    ∃ a b, w.store.assets.get? x = some a ∧ a.status = .pending ∧ b.id = x ∧
      b.isManagedTable = a.isManagedTable ∧ (w.settleByTasks x).1 =
        some ⟨b, b.status == .saved && (b.isManagedTable && b.wantsTileCache)⟩ ∧
      (a.isManagedTable = true → (w.settleByTasks x).2.store.assets.get? x = some b ∧
        (w.settleByTasks x).2.store.assets.keys = w.store.assets.keys) := by
  unfold settleByTasks
  cases ha : w.store.assets.get? x with
  | none => exact Or.inl ⟨rfl, rfl⟩
  | some a =>
    dsimp only
    cases hdecision : Decision.ofTasks w.now a (w.store.tasksOf x) with
    | settled | wait => exact Or.inl ⟨rfl, rfl⟩
    | finish o =>
      dsimp only
      obtain ⟨hpending, entry, ho⟩ := Decision.finish_cases hdecision
      have hid : a.id = x := hw.asset_id x a ha
      set t := o.transition a (w.fieldsFor a o) with ht
      obtain ⟨s, hcommit, hrevises⟩ := Store.commit_of_pending (t := t) (hid ▸ ha)
        (Status.isTerminal_eq_false_iff.mpr hpending)
      refine Or.inr ⟨a, t.applyAsset a, rfl, hpending, hid, rfl, ?_, fun hmanaged => ?_⟩
      · unfold settle
        rw [← ht, hcommit]
        rcases ho with rfl | rfl <;> rfl
      · have htiles : o.redeploysTiles = false := by
          rcases ho with rfl | rfl
          · rfl
          · exact AssetType.isTileCache_of_isDatabase (Asset.isDatabase_of_isManagedTable hmanaged)
        unfold settle
        rw [← ht, hcommit]
        dsimp only
        rw [htiles, if_neg Bool.false_ne_true, measureSettled_store]
        refine ⟨?_, hrevises.keys⟩
        rw [hrevises.assets, ha, ← hid]
        exact congrArg some (Store.only_self _ _ _)

/-- A managed table that its tasks save is given back with its wish, and no asset is filed. -/
theorem settleByTasks_saves {x y : AssetId} {a table : Asset} (hw : w.store.WellFormed)
    (ha : w.store.assets.get? y = some a) (hpending : a.status = .pending)
    (hmanaged : a.isManagedTable = true)
    (htable : (w.settleByTasks x).2.store.assets.get? y = some table)
    (hsaved : table.status = .saved) :
    (w.settleByTasks x).1 = some ⟨table, table.wantsTileCache⟩ ∧
      (w.settleByTasks x).2.store.assets.keys = w.store.assets.keys := by
  have hchanged : table ≠ a := by
    rintro rfl
    rw [hpending] at hsaved
    cases hsaved
  obtain rfl : y = x := by
    by_contra hne
    exact hchanged (settleByTasks_of_ne hw hne ha htable)
  rcases settleByTasks_gives hw y with ⟨_, hsame⟩ | ⟨a', b, ha', _, _, hb, hgives, hstored⟩
  · rw [hsame] at htable
    exact absurd (Option.some.inj (htable.symm.trans ha)) hchanged
  · obtain rfl : a' = a := Option.some.inj (ha'.symm.trans ha)
    obtain ⟨hstored, hkeys⟩ := hstored hmanaged
    obtain rfl : b = table := Option.some.inj (hstored.symm.trans htable)
    rw [hsaved, hb, hmanaged] at hgives
    exact ⟨hgives, hkeys⟩

/-- An asset that is given back with the need of a tile cache is a managed table that its tasks have
just saved. -/
theorem saves_of_settleByTasks {x : AssetId} {table : Asset} (hw : w.store.WellFormed)
    (h : (w.settleByTasks x).1 = some ⟨table, true⟩) :
    (∃ a, w.store.assets.get? table.id = some a ∧ a.status = .pending) ∧
      (w.settleByTasks x).2.store.assets.get? table.id = some table ∧
      table.isManagedTable = true ∧ table.status = .saved ∧ table.wantsTileCache = true := by
  rcases settleByTasks_gives hw x with ⟨hnone, _⟩ | ⟨a, b, ha, hpending, hid, hb, hgives, hstored⟩
  · rw [hnone] at h
    cases h
  · obtain ⟨rfl, hregisters⟩ := Settled.mk.inj (Option.some.inj (hgives.symm.trans h))
    simp only [Bool.and_eq_true, beq_iff_eq] at hregisters
    obtain ⟨hsaved, hmanaged, hwants⟩ := hregisters
    rw [hid]
    exact ⟨⟨a, ha, hpending⟩, (hstored (hb ▸ hmanaged)).1, hmanaged, hsaved, hwants⟩

/-! ## Filing a tile cache -/

/-- The world once the id of an asset was drawn. -/
def withAssetDrawn (w : World) : World :=
  { w with ids := { w.ids with assetsDrawn := w.ids.assetsDrawn + 1 } }

/-- The tile cache of a table, as it is filed: a managed asset beside the default one, with default
options, the fields of the table and all zoom levels. -/
def tileCacheOf (w : World) (table : Asset) : Asset where
  id := w.ids.asset w.ids.assetsDrawn
  key := table.key
  type := .dynamicVectorTileCache
  uri := Location.tileCache w.settings.tileCacheUrl table.key "dynamic" "pbf"
  isManaged := true
  isDefault := false
  status := .pending
  options := some (.dynamicTiles {})
  metadata := { fields := table.metadata.fields, minZoom := some 0, maxZoom := some 22 }
  expectedTasks := none
  log := []
  created := w.now

/-- How the registration of a tile cache changes the world. -/
inductive Registration (w : World) (table : Asset) : Option Asset → World → Prop where
  /-- The place of the cache is free, and the cache is filed. -/
  | filed {v : Version} (hversion : w.store.versions.get? table.key = some v)
    (hfree : w.store.places.get? (w.tileCacheOf table).uri = none) :
    Registration w table (some (w.tileCacheOf table))
      { w.withAssetDrawn with store := w.store.fileAsset (w.tileCacheOf table) }
  /-- The place is taken, which is noted in the log of the version. -/
  | taken {v : Version} {x : AssetId} (hversion : w.store.versions.get? table.key = some v)
    (htaken : w.store.places.get? (w.tileCacheOf table).uri = some x) :
    Registration w table none { w.withAssetDrawn with store := { w.store with
      versions := w.store.versions.insert table.key { v with log := v.log ++
        [TileCache.failedEntry w.now (.alreadyExists "asset" (w.tileCacheOf table).uri)] } } }
  /-- The version was deleted in the meantime. -/
  | gone (hversion : w.store.versions.get? table.key = none) :
    Registration w table none w.withAssetDrawn

end World

namespace TileCache

variable {w : World} {table : Asset}

theorem ofTable_tileCacheOf (w : World) (table : Asset) :
    ofTable w.settings w.now (w.ids.asset w.ids.assetsDrawn) table = .ok (w.tileCacheOf table) :=
  rfl

theorem file_run_ok {s : Store} (h : w.store.createAsset (w.tileCacheOf table) = .ok s) :
    (file table).run w = (.ok (w.tileCacheOf table), { w.withAssetDrawn with store := s }) := by
  unfold file
  rw [Flow.run_drawAssetId_bind, Flow.run_read_bind, Flow.run_read_bind]
  change (Flow.check (.ok (w.tileCacheOf table)) >>= _).run w.withAssetDrawn = _
  rw [Flow.run_check_ok_bind, Flow.run_updateStore_bind_ok h]
  rfl

theorem file_run_error {e : Error} (h : w.store.createAsset (w.tileCacheOf table) = .error e) :
    (file table).run w = (.error e, w.withAssetDrawn) := by
  unfold file
  rw [Flow.run_drawAssetId_bind, Flow.run_read_bind, Flow.run_read_bind]
  change (Flow.check (.ok (w.tileCacheOf table)) >>= _).run w.withAssetDrawn = _
  rw [Flow.run_check_ok_bind, Flow.run_updateStore_bind_error h]

end TileCache

/-! ## Steps -/

namespace Activity

variable {w : World} {table : Asset} {answer : Answer}

theorem register_step_filed {s : Store} (goal : Goal)
    (h : w.store.createAsset (w.tileCacheOf table) = .ok s) :
    (register table goal).step.run w = (.ok (.goOn (.inspect (w.tileCacheOf table) goal)),
      { w.withAssetDrawn with store := s }) := by
  refine step_run_of_ok ?_
  show (registerNow table goal).run w = _
  rw [registerNow, Flow.run_attempt_bind, TileCache.file_run_ok h]
  rfl

/-- Whether or not the failure can be noted, the answer is given. -/
theorem register_step_unfiled {e : Error} (answer : Answer)
    (h : w.store.createAsset (w.tileCacheOf table) = .error e) :
    (register table (.answer answer)).step.run w = (.ok (.finished answer),
      match w.store.appendVersionLog table.key (TileCache.failedEntry w.now e) with
      | .ok s => { w.withAssetDrawn with store := s }
      | .error _ => w.withAssetDrawn) := by
  have hproceed : (register table (.answer answer)).proceed.run w =
      (Flow.updateStore (·.appendVersionLog table.key (TileCache.failedEntry w.now e)) >>=
        fun _ => pure (.follow (.answer answer) none)).run w.withAssetDrawn := by
    show (registerNow table _).run w = _
    rw [registerNow, Flow.run_attempt_bind, TileCache.file_run_error h]
    rfl
  cases hnote : w.store.appendVersionLog table.key (TileCache.failedEntry w.now e) with
  | ok s =>
    refine step_run_of_ok ?_
    rw [hproceed, Flow.run_updateStore_bind_ok hnote]
    rfl
  | error e' =>
    rw [Flow.run_updateStore_bind_error hnote] at hproceed
    unfold step Flow.elseGive
    rw [Flow.run_ofRun, hproceed]
    rfl

/-- To register a tile cache takes an id. -/
theorem register_step_ids (w : World) (table : Asset) (answer : Answer) :
    ((register table (.answer answer)).step.run w).2.ids = w.withAssetDrawn.ids := by
  cases h : w.store.createAsset (w.tileCacheOf table) with
  | ok s => rw [register_step_filed _ h]
  | error e =>
    rw [register_step_unfiled answer h]
    dsimp only
    split <;> rfl

/-- The tile cache of a table is filed, and looked at next; or the answer is given. -/
theorem register_step (w : World) (table : Asset) (answer : Answer)
    (hnew : w.store.assets.get? (w.tileCacheOf table).id = none) :
    ∃ cache? w', w.Registration table cache? w' ∧ (register table (.answer answer)).step.run w =
      (.ok (cache?.elim (.finished answer) fun c => .goOn (.inspect c (.answer answer))), w') := by
  cases hversion : w.store.versions.get? table.key with
  | none =>
    have hcreate : w.store.createAsset (w.tileCacheOf table) =
        .error (.notFound "version" table.key.text) := by
      have hgone : w.store.versions.contains (w.tileCacheOf table).key = false :=
        Directory.contains_eq_false_iff.mpr hversion
      unfold Store.createAsset
      rw [hgone]
      rfl
    refine ⟨none, _, .gone hversion, ?_⟩
    rw [register_step_unfiled answer hcreate, Store.appendVersionLog, Store.version, hversion]
    rfl
  | some v =>
    have hthere : w.store.versions.contains (w.tileCacheOf table).key = true :=
      Directory.contains_iff.mpr ⟨v, hversion⟩
    cases hplace : w.store.places.get? (w.tileCacheOf table).uri with
    | none =>
      have hcreate := Store.createAsset_of_free (a := w.tileCacheOf table) hversion hnew hplace rfl
      exact ⟨_, _, .filed hversion hplace, register_step_filed _ hcreate⟩
    | some x =>
      have hcreate := Store.createAsset_of_place hthere hplace
      rw [Directory.contains_eq_false_iff.mpr hnew, if_neg Bool.false_ne_true] at hcreate
      refine ⟨none, _, .taken hversion hplace, ?_⟩
      rw [register_step_unfiled answer hcreate, Store.appendVersionLog, Store.version, hversion]
      rfl

theorem inspect_step {c b : Asset} (goal : Goal) (hb : w.store.assets.get? c.id = some b) :
    (inspect c goal).step.run w =
      (.ok (.goOn (.settle c (inspectedOutcome w c) goal)), { w with store := { w.store with
        assets := w.store.assets.insert c.id { b with expectedTasks := some 0 } } }) := by
  refine step_run_of_ok ?_
  have hset : w.store.setExpectedTasks c.id 0 = .ok { w.store with
      assets := w.store.assets.insert c.id { b with expectedTasks := some 0 } } := by
    rw [Store.setExpectedTasks, Store.updateAsset, Store.asset, hb]
    rfl
  show (inspectNow c _).run w = _
  rw [inspectNow, Flow.run_read_bind, Flow.run_updateStore_bind_ok hset]
  rfl

theorem settle_step (w : World) (c : Asset) (o : Outcome) (goal : Goal) :
    (settle c o goal).step.run w = (.ok (.follow goal (w.settle c o).1), (w.settle c o).2) :=
  step_run_of_ok rfl

end Activity

/-! ## The fate of a tile cache -/

theorem Store.WellFormed.mem_assetsOf_iff {s : Store} (hw : s.WellFormed) {k : VersionKey}
    {b : Asset} : b ∈ s.assetsOf k ↔ s.assets.get? b.id = some b ∧ b.key = k := by
  rw [Store.assetsOf, List.mem_mergeSort, List.mem_filter, hw.mem_values_iff, beq_iff_eq]

/-- Tiles are rendered from a saved table of the version. -/
theorem TileCache.of_tableOf? {s : Store} (hw : s.WellFormed) {k : VersionKey} {table : Asset}
    (h : tableOf? s k = some table) : s.assets.get? table.id = some table ∧ table.key = k ∧
      table.type.isDatabase = true ∧ table.status = .saved := by
  obtain ⟨hstored, hkey⟩ := hw.mem_assetsOf_iff.mp (List.mem_of_find?_eq_some h)
  have htable := List.find?_some h
  rw [Bool.and_eq_true, beq_iff_eq] at htable
  exact ⟨hstored, hkey, htable⟩

/-- The only table of a version is the one from which tiles are rendered, once it is saved. -/
theorem TileCache.tableOf?_eq_some {s : Store} (hw : s.WellFormed) {table : Asset}
    (htable : s.assets.get? table.id = some table) (htype : table.type.isDatabase = true)
    (hsaved : table.status = .saved)
    (hone : ∀ y b, s.assets.get? y = some b → b.key = table.key → b.type.isDatabase = true →
      y = table.id) : tableOf? s table.key = some table := by
  cases hfound : tableOf? s table.key with
  | none =>
    have hno := List.find?_eq_none.mp hfound table (hw.mem_assetsOf_iff.mpr ⟨htable, rfl⟩)
    rw [htype, hsaved] at hno
    exact absurd rfl hno
  | some b =>
    obtain ⟨hb, hkey, hdatabase, _⟩ := of_tableOf? hw hfound
    have hid := hone b.id b hb hkey hdatabase
    rw [hid, htable] at hb
    exact hb.symm

/-- What becomes of a tile cache depends on the table below it. -/
theorem Outcome.ofTileCache_status {time : Timestamp} {cache table : Asset}
    (htype : table.type.isDatabase = true) (hsaved : table.status = .saved) :
    (ofTileCache time cache (some table)).status = .saved ↔ table.ShowsWebMap := by
  rw [← Asset.servesTiles_iff htype hsaved, ofTileCache, Option.any_some]
  cases table.servesTiles <;> simp [saved, failed]

/-- The fields of a tile cache stay those of its table, and it has no tile cache itself. -/
theorem Outcome.ofTileCache_adds_nothing {time : Timestamp} {cache : Asset}
    (htype : cache.type = .dynamicVectorTileCache) (table? : Option Asset) :
    (ofTileCache time cache table?).attachesFields = false ∧
      (ofTileCache time cache table?).registersTileCache = false := by
  have hmanaged : cache.isManagedTable = false := by
    rw [Asset.isManagedTable, htype]
    exact Bool.and_false _
  unfold ofTileCache
  split
  · refine ⟨hmanaged, ?_⟩
    show (cache.isManagedTable && _) = false
    rw [hmanaged, Bool.false_and]
  · exact ⟨hmanaged, rfl⟩

namespace World

/-- What the log of an asset says of the tile service that was told about it. -/
def redeployNotes (w : World) : List LogEntry :=
  match w.services.tiles.redeploy with
  | .ok _ => []
  | .error e => [w.redeployFailedEntry e]

/-- What is added to the log of an asset that is settled. -/
def settlementLog (w : World) (o : Outcome) : List LogEntry :=
  o.entry :: if o.redeploysTiles then w.redeployNotes else []

/-- If the tile service cannot be told, the log of the asset says so. -/
theorem asset_of_redeployTiles {w : World} {x : AssetId} {a : Asset}
    (ha : w.store.assets.get? x = some a) : (w.redeployTiles x).store.assets.get? x =
      some { a with log := a.log ++ w.redeployNotes } := by
  unfold redeployTiles redeployNotes
  cases w.services.tiles.redeploy with
  | ok tiles =>
    dsimp only
    rw [List.append_nil]
    exact ha
  | error e =>
    dsimp only
    rw [Store.appendAssetLog, Store.updateAsset, Store.asset, ha]
    exact Directory.get?_insert_self _ _ _

theorem redeployNotes_measureSettled (w : World) (a : Asset) (v : Option Version) :
    (w.measureSettled a v).redeployNotes = w.redeployNotes := by
  cases v <;> rfl

/-- What settling makes of a pending asset: the transition of the outcome is applied to it, and what
the tile service answers may be noted. -/
theorem applied_of_settle {w : World} {c b : Asset} {o : Outcome} (hid : b.id = c.id)
    (hb : w.store.assets.get? c.id = some b) (hpending : b.status = .pending) :
    (w.settle c o).2.store.assets.get? c.id =
      some { (o.transition c (w.fieldsFor c o)).applyAsset b with
        log := b.log ++ w.settlementLog o } := by
  set t := o.transition c (w.fieldsFor c o) with ht
  obtain ⟨s, hcommit, hrevises⟩ := Store.commit_of_pending (t := t) hb
    (Status.isTerminal_eq_false_iff.mpr hpending)
  obtain ⟨d, hd⟩ : ∃ d, d = t.applyAsset b := ⟨_, rfl⟩
  have hsettled : s.assets.get? c.id = some d := by
    rw [hrevises.assets, hb, hd]
    exact congrArg some (Store.only_self _ _ _)
  have hdid : d.id = c.id := by
    rw [hd]
    exact hid
  have hlog : d.log = b.log ++ [o.entry] := by
    rw [hd]
    rfl
  rw [← hd] at hcommit ⊢
  unfold settle settlementLog
  rw [← ht, hcommit]
  dsimp only
  split
  · have hnoted := fun v? => asset_of_redeployTiles (w := measureSettled { w with store := s } d v?)
      (x := c.id) (a := d) (by rw [measureSettled_store, hsettled])
    simp only [hdid, redeployNotes_measureSettled, hlog, List.append_assoc] at hnoted ⊢
    exact hnoted _
  · rw [measureSettled_store, hsettled, ← hlog]

/-- What settling changes of a pending asset whose fields stay: its status and its log. -/
theorem asset_of_settle {w : World} {c b : Asset} {o : Outcome} (hid : b.id = c.id)
    (hb : w.store.assets.get? c.id = some b) (hpending : b.status = .pending)
    (hfields : o.attachesFields = false) : (w.settle c o).2.store.assets.get? c.id =
      some { b with status := o.status, log := b.log ++ w.settlementLog o } := by
  rw [applied_of_settle hid hb hpending, fieldsFor, hfields]
  rfl

end World

end GeoAssets
