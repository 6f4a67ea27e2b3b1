import GeoAssets.Proofs.Pipeline.Watched
import GeoAssets.Proofs.Run.Defaults

/-!
# Where assets are

The settings never change in a run. So every asset is what it was planned as under these settings
and lies where its options put it: it is the default table of its version, or it was derived from
that table as a tile cache or as an exported file (`Asset.IsPlanned`). There are no assets of other
types, since no pipeline makes them.
-/

namespace GeoAssets

/-! ## Planned assets -/

/-- The extension of the file to which an asset of a type is exported. -/
def AssetType.fileExtension? : AssetType → Option String
  | .shapefile => some "shp.zip"
  | .geopackage => some "gpkg"
  | _ => none

theorem AssetType.eq_of_isDatabase {type : AssetType} (h : type.isDatabase = true) :
    type = .databaseTable ∨ type = .geoDatabaseTable := by
  cases type with
  | databaseTable => exact Or.inl rfl
  | geoDatabaseTable => exact Or.inr rfl
  | _ => cases h

theorem AssetType.eq_of_fileExtension? {type : AssetType} {extension : String}
    (h : type.fileExtension? = some extension) :
    type = .shapefile ∧ extension = "shp.zip" ∨ type = .geopackage ∧ extension = "gpkg" := by
  cases type with
  | shapefile => exact Or.inl ⟨rfl, (Option.some.inj h).symm⟩
  | geopackage => exact Or.inr ⟨rfl, (Option.some.inj h).symm⟩
  | _ => cases h

/-- What an asset is, with its type, its options and its place. -/
inductive Asset.Lies (settings : Settings) (a : Asset) : Prop where
  | table {o : CreationOptions} (type : a.type.isDatabase = true) (isDefault : a.isDefault = true)
    (options : a.options = some o) (source : o.IsTableSource)
    (uri : a.uri = Location.features a.key)
  | dynamicTiles {t : DynamicTiles} (type : a.type = .dynamicVectorTileCache)
    (isDefault : a.isDefault = false) (options : a.options = some (.dynamicTiles t))
    (uri : a.uri = Location.tileCache settings.tileCacheUrl a.key t.implementation "pbf")
  | staticTiles {t : StaticTiles} (type : a.type = .staticVectorTileCache)
    (isDefault : a.isDefault = false) (options : a.options = some (.staticTiles t))
    (uri : a.uri = Location.tileCache settings.tileCacheUrl a.key t.implementation "pbf")
  | file {f : VectorFile} {extension : String} (type : a.type.fileExtension? = some extension)
    (isDefault : a.isDefault = false) (options : a.options = some (.vectorFile f))
    (uri : a.uri = Location.vectorFile settings.dataLakeBucket a.key extension)

/-- An asset that the catalog has planned and manages. -/
structure Asset.IsPlanned (settings : Settings) (a : Asset) : Prop where
  isManaged : a.isManaged = true
  lies : a.Lies settings

theorem Asset.IsPlanned.becomes {settings : Settings} {a b : Asset} (h : a.IsPlanned settings)
    (hb : a.Becomes b) : b.IsPlanned settings := by
  rw [hb.same]
  exact ⟨h.isManaged, match h.lies with
    | .table type isDefault options source uri => .table type isDefault options source uri
    | .dynamicTiles type isDefault options uri => .dynamicTiles type isDefault options uri
    | .staticTiles type isDefault options uri => .staticTiles type isDefault options uri
    | .file type isDefault options uri => .file type isDefault options uri⟩

/-- The default asset of a version is the one that is a table. -/
theorem Asset.IsPlanned.isDefault_iff {settings : Settings} {a : Asset} (h : a.IsPlanned settings) :
    a.isDefault = true ↔ a.type.isDatabase = true := by
  cases h.lies with
  | table type isDefault => exact iff_of_true isDefault type
  | dynamicTiles type isDefault | staticTiles type isDefault =>
    rw [isDefault, type]
    decide
  | file type isDefault =>
    rw [isDefault]
    rcases AssetType.eq_of_fileExtension? type with ⟨h, _⟩ | ⟨h, _⟩ <;> rw [h] <;> decide

/-- Options that pass the check are those that were read. -/
theorem CreationOptions.eq_some_of_checked {read : Option CreationOptions}
    {options : CreationOptions} (h : checked read = .ok options) : read = some options := by
  simp only [checked, bind_eq_ok_iff, orElseFail_eq_ok_iff] at h
  obtain ⟨_, hread, _, _, h⟩ := h
  cases h
  exact hread

namespace Request

open CreationOptions (eq_some_of_checked)

variable {settings : Settings} {now : Timestamp} {id : AssetId} {key : VersionKey} {json : Json}
  {a : Asset} {g : JobGraph}

theorem planSource_isPlanned {sourceType : String}
    (h : planSource settings now id key sourceType json = .ok (a, g)) :
    a.IsPlanned settings := by
  obtain ⟨o, _, htable⟩ := planSource_isTableOf h
  refine ⟨htable.isManaged, .table ?_ htable.isDefault htable.options htable.source ?_⟩
  · rcases htable.type with htype | htype <;> rw [htype] <;> rfl
  · rw [htable.uri, htable.key]

theorem key_of_planDerived {type : AssetType} {siblings : List Asset}
    (h : planDerived settings now id key type json siblings = .ok (a, g)) : a.key = key := by
  simp only [planDerived, bind_eq_ok_iff] at h
  obtain ⟨_, _, _, _, _, _, h⟩ := h
  cases h
  rfl

/-- What is planned beside the default asset is a tile cache or a file; rasters are refused. -/
theorem planDerived_isPlanned {type : AssetType} {siblings : List Asset}
    (h : planDerived settings now id key type json siblings = .ok (a, g)) :
    a.IsPlanned settings := by
  simp only [planDerived, bind_eq_ok_iff] at h
  obtain ⟨options, hoptions, uri, huri, g', hg, h⟩ := h
  cases h
  refine ⟨rfl, ?_⟩
  -- the plan has a template for the options
  have hjobs : ∃ b js, Plan.jobs b options = .ok js := by
    simp only [Plan.build, bind_eq_ok_iff] at hg
    obtain ⟨_, hsome, _, _, _, _, js, hjs, _⟩ := hg
    cases hsome
    exact ⟨_, js, hjs⟩
  obtain ⟨b, js, hjobs⟩ := hjobs
  cases type with
  | dynamicVectorTileCache =>
    obtain ⟨t, _, rfl⟩ := Option.map_eq_some_iff.mp (eq_some_of_checked hoptions)
    cases huri
    exact .dynamicTiles rfl rfl rfl rfl
  | staticVectorTileCache =>
    obtain ⟨t, _, rfl⟩ := Option.map_eq_some_iff.mp (eq_some_of_checked hoptions)
    cases huri
    exact .staticTiles rfl rfl rfl rfl
  | shapefile | geopackage =>
    obtain ⟨f, _, rfl⟩ := Option.map_eq_some_iff.mp (eq_some_of_checked hoptions)
    cases huri
    exact .file rfl rfl rfl rfl
  | rasterTileSet | rasterTileCache =>
    obtain ⟨_, _, rfl⟩ := Option.map_eq_some_iff.mp (eq_some_of_checked hoptions)
    cases hjobs
  | _ => cases hoptions

end Request

/-! ## Tile caches of tables -/

namespace TileCache

variable {settings : Settings} {time : Timestamp} {id : AssetId} {table cache : Asset}

theorem ofTable_isPlanned (h : ofTable settings time id table = .ok cache) :
    cache.IsPlanned settings := by
  cases h
  exact ⟨rfl, .dynamicTiles rfl rfl rfl rfl⟩

/-- The tile cache that is filed is the one that was made for the table. -/
theorem ofTable_of_file {w w' : World} (h : (file table).run w = (.ok cache, w')) :
    ofTable w.settings w.now (w.ids.asset w.ids.assetsDrawn) table = .ok cache := by
  unfold file at h
  rw [Flow.run_drawAssetId_bind, Flow.run_read_bind, Flow.run_read_bind] at h
  rcases Flow.run_check_bind_cases h with ⟨c, hc, h⟩ | ⟨_, _, hr, _⟩
  swap
  · cases hr
  rcases Flow.run_updateStore_bind_cases h with ⟨_, _, h⟩ | ⟨_, _, hr, _⟩
  · cases h
    exact hc
  · cases hr

end TileCache

namespace Activity

variable {w w' : World} {a : Activity} {r : Except Error Next}

/-- An asset that appears by a step is the tile cache of a table. -/
theorem exists_ofTable (hs : a.Suits w.store) (hw : w.Sound) (hr : a.step.run w = (r, w'))
    (hd : w'.ids.Distinct) {x : AssetId} (hnone : w.store.assets.get? x = none) {b : Asset}
    (hb : w'.store.assets.get? x = some b) :
    ∃ table goal, a = .register table goal ∧
      TileCache.ofTable w.settings w.now (w.ids.asset w.ids.assetsDrawn) table = .ok b := by
  obtain ⟨ops, hm, he⟩ := step_moves hw hs hr hd
  obtain ⟨op, hop, c, hc, _⟩ := he.store.exists_files_of_none hw.wellFormed hnone hb
  obtain ⟨table, goal, rfl, _⟩ := hm.files hw.wellFormed hop hc
  refine ⟨table, goal, rfl, ?_⟩
  obtain ⟨r₀, hproceed, _⟩ := step_cases hr
  change (registerNow table goal).run w = _ at hproceed
  unfold registerNow at hproceed
  rw [Flow.run_attempt_bind] at hproceed
  rcases hfile : (TileCache.file table).run w with ⟨r₁, w₁⟩
  rw [hfile] at hproceed
  rcases TileCache.file_cases hfile with ⟨cache, rfl, hcache⟩ | ⟨e, rfl, hnothing⟩
  · cases hproceed
    obtain ⟨hfiles, _⟩ := hcache.store.asset_of_single hw.wellFormed hnone hb
    cases hfiles
    exact TileCache.ofTable_of_file hfile
  · -- the log of a version is no asset
    have hassets : w'.store.assets = w.store.assets := by
      rw [← hnothing.store.of_nil.1]
      change (Flow.read _ >>= _).run w₁ = _ at hproceed
      rw [Flow.run_read_bind] at hproceed
      rcases Flow.run_updateStore_bind_cases hproceed with ⟨s, hnote, h⟩ | ⟨_, _, _, rfl⟩
      · cases h
        obtain ⟨_, _, rfl⟩ := Store.appendVersionLog_eq_ok hnote
        rfl
      · rfl
    rw [hassets, hnone] at hb
    cases hb

end Activity

/-! ## Origins -/

/-- An asset is made for the next id: of a source, of a request for a derived asset, or for a
table. -/
inductive World.Plans (w : World) (b : Asset) : Prop where
  | source {key : VersionKey} {sourceType : String} {json : Json} {g : JobGraph}
    (h : w.planSource key sourceType json = .ok (b, g))
  | derived {key : VersionKey} {type : AssetType} {json : Json} {g : JobGraph}
    (h : w.planDerived key type json = .ok (b, g))
  | tileCache {table : Asset}
    (h : TileCache.ofTable w.settings w.now (w.ids.asset w.ids.assetsDrawn) table = .ok b)

theorem World.Plans.isPlanned {w : World} {b : Asset} (h : w.Plans b) :
    b.IsPlanned w.settings := by
  cases h with
  | source h => exact Request.planSource_isPlanned h
  | derived h => exact Request.planDerived_isPlanned h
  | tileCache h => exact TileCache.ofTable_isPlanned h

/-! ## Derived assets -/

/-- No two assets are at one place. -/
theorem Store.WellFormed.uri_ne {s : Store} (hw : s.WellFormed) {x y : AssetId} {a b : Asset}
    (ha : s.assets.get? x = some a) (hb : s.assets.get? y = some b) (hne : x ≠ y) :
    a.uri ≠ b.uri := by
  intro huri
  have hx := (hw.place_iff a.uri x).mpr ⟨a, ha, rfl⟩
  have hy := (hw.place_iff a.uri y).mpr ⟨b, hb, huri.symm⟩
  exact hne (Option.some.inj (hx.symm.trans hy))

/-- The assets of a version that were filed in the order of their ids. -/
theorem Store.assetsOf_of_pairwise {s : Store} {key : VersionKey}
    (h : (s.assets.values.filter (·.key == key)).Pairwise fun a b => a.id.le b.id = true) :
    s.assetsOf key = s.assets.values.filter (·.key == key) :=
  List.mergeSort_of_pairwise h

/-- A derived asset that can be planned and filed is created. -/
theorem Command.createAsset_run_of_planDerived {w : World} {key : VersionKey} {type : AssetType}
    {json : Json} {a : Asset} {g : JobGraph} {s : Store}
    (hplan : w.planDerived key type json = .ok (a, g)) (hs : w.store.createAsset a = .ok s) :
    (createAsset key type json).flow.run w = (.ok (some (.pipeline a g)),
      { w with ids := { w.ids with assetsDrawn := w.ids.assetsDrawn + 1 }, store := s }) := by
  obtain ⟨⟨v, hv⟩, _⟩ := Store.createAsset_eq_ok hs
  have hversion : w.store.version key = .ok v := by
    rw [Request.key_of_planDerived hplan] at hv
    rw [Store.version, hv]
    rfl
  have hrun : (Request.createAsset key type json).run w = (.ok (a, .pipeline a g),
      { w with ids := { w.ids with assetsDrawn := w.ids.assetsDrawn + 1 }, store := s }) := by
    unfold Request.createAsset
    rw [Flow.run_check_read_bind, hversion, Flow.run_check_ok_bind, Flow.run_drawAssetId_bind,
      Flow.run_read_bind, Flow.run_read_bind, Flow.run_read_bind]
    show (Flow.check (w.planDerived key type json) >>= _).run _ = _
    rw [hplan, Flow.run_check_ok_bind, Flow.run_updateStore_bind_ok hs]
    rfl
  show (Request.createAsset key type json >>= fun answer => pure (some answer.2)).run w = _
  rw [Flow.run_bind, hrun]
  rfl

/-! ## Settings -/

/-- The settings stay as they are. -/
def World.KeepsSettings (w w' : World) : Prop :=
  w'.settings = w.settings

instance : World.Permits World.KeepsSettings where
  refl := fun _ => rfl
  trans := fun h h' => Eq.trans h' h
  measure := fun _ _ => rfl
  drawAsset := fun _ => rfl
  tiles := fun _ _ => rfl
  tearDown := fun _ _ _ _ => rfl
  commit := fun _ _ => rfl
  createTask := fun _ _ => rfl
  updateAsset := fun _ _ _ _ _ => rfl
  createAsset := fun _ _ _ _ => rfl
  appendTaskLog := fun _ _ _ _ _ _ => rfl
  appendVersionLog := fun _ _ _ _ _ => rfl

instance : World.PermitsRequests World.KeepsSettings where
  drawAsset := World.Permits.drawAsset
  store := fun _ _ => rfl
  distribution := fun _ _ => rfl

namespace Orchestrator

variable {o : Orchestrator}

theorem handle_settings (o : Orchestrator) (e : Event) :
    (o.handle e).world.settings = o.world.settings := by
  have h := o.handle_touches e
  generalize (o.handle e).world = w' at h ⊢
  cases h with
  | @request c _ _ hr => exact c.flow_within (R := World.KeepsSettings) o.world _ w' hr
  | @step _ a _ _ _ hr =>
    exact a.step_within (R := World.KeepsSettings) (fun _ _ _ _ _ => rfl) o.world _ w' hr
  | surround s => rfl
  | nothing => rfl

theorem after_settings (o : Orchestrator) (es : List Event) :
    (o.after es).world.settings = o.world.settings := by
  induction es generalizing o with
  | nil => rfl
  | cons e es ih =>
    rw [after_cons, ih (o.handle e)]
    exact o.handle_settings e

/-! ## Runs -/

/-- An asset that appears was made of a source, derived, or registered for a table. -/
theorem plans_of_none (hs : o.Sound) {e : Event} (hd : (o.handle e).world.ids.Distinct)
    {x : AssetId} (hnone : o.world.store.assets.get? x = none) {b : Asset}
    (hb : (o.handle e).world.store.assets.get? x = some b) : o.world.Plans b := by
  have hfiled : ∀ {a : Asset} {s : Store}, s.assets = o.world.store.assets.insert a.id a →
      s.assets.get? x = some b → a = b := by
    intro a s hassets hb
    rw [hassets, Directory.get?_insert] at hb
    split at hb
    · cases hb
      rfl
    · rw [hnone] at hb
      cases hb
  by_cases hcommand : ∃ c, e = .command c
  swap
  · have h := o.handle_touches e
    generalize (o.handle e).world = w' at h hb hd
    cases h with
    | request => exact absurd ⟨_, rfl⟩ hcommand
    | @step n a _ _ ha hr =>
      obtain ⟨_, _, _, hcache⟩ := Activity.exists_ofTable (hs.suits n a ha) hs.world hr hd hnone hb
      exact .tileCache hcache
    | surround | nothing =>
      change o.world.store.assets.get? x = some b at hb
      rw [hnone] at hb
      cases hb
  obtain ⟨c, rfl⟩ := hcommand
  rcases handle_command_performs hs hd with hstore | ⟨hgrants, op, hasks, hop⟩
  · rw [hstore, hnone] at hb
    cases hb
  obtain ⟨hfiles, _⟩ := hop.asset_of_none hs.world.wellFormed hnone hb
  have hchanges := changes_of_grants hgrants
  generalize (o.handle (.command c)).world.store = s at hb hchanges
  cases hasks with
  | createVersion =>
    obtain ⟨a, _, hplan, hcreate⟩ := hchanges
    obtain ⟨_, _, _, hstore⟩ := Store.createVersion_eq_ok hcreate
    have hassets : s.assets = o.world.store.assets.insert a.id a := by
      rw [hstore]
      split <;> rfl
    rw [← hfiled hassets hb]
    exact .source hplan
  | createDefaultAsset =>
    obtain ⟨a, _, hplan, hcreate⟩ := hchanges
    obtain ⟨_, _, _, _, hstore⟩ := Store.createAsset_eq_ok hcreate
    rw [← hfiled (congrArg Store.assets hstore) hb]
    exact .source hplan
  | createAsset =>
    obtain ⟨a, _, hplan, hcreate⟩ := hchanges
    obtain ⟨_, _, _, _, hstore⟩ := Store.createAsset_eq_ok hcreate
    rw [← hfiled (congrArg Store.assets hstore) hb]
    exact .derived hplan
  | _ => cases hfiles

/-- All assets of a state were planned. -/
def HasPlanned (o : Orchestrator) : Prop :=
  ∀ x a, o.world.store.assets.get? x = some a → a.IsPlanned o.world.settings

theorem HasPlanned.handle (ho : o.HasPlanned) (hs : o.Sound) {e : Event}
    (hd : (o.handle e).world.ids.Distinct) : (o.handle e).HasPlanned := by
  intro x b hb
  rw [o.handle_settings e]
  cases ha : o.world.store.assets.get? x with
  | none => exact (plans_of_none hs hd ha hb).isPlanned
  | some a =>
    obtain ⟨ops, he, _⟩ := handle_cases hs e hd
    exact (ho x a ha).becomes (he.asset_of_some hd hs.world ha hb).2.1

/-- In every state of every run all assets are where they were planned. -/
theorem hasPlanned_after {settings : Settings} {now : Timestamp} {ids : IdSupply}
    {es : List Event} (hd : ((initial settings now ids).after es).world.ids.Distinct) :
    ((initial settings now ids).after es).HasPlanned :=
  after_induction (initial_sound settings now ids) hd (fun x a ha => by cases ha)
    fun _ _ hs hd ho => ho.handle hs hd

end Orchestrator

end GeoAssets
