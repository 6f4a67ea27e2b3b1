import GeoAssets.Proofs.Location
import GeoAssets.Proofs.Run.Isolation
import GeoAssets.Proofs.Run.Places

/-!
# What the teardown of an asset removes

Every asset of a run can be torn down, since the actions are found from its type and options as its
place was. They remove what is at the place of the asset (`Teardown.Empties`), all of which the
teardown of its version would remove, too. So an asset that is not a default one can always be
deleted.
-/

namespace GeoAssets

/-! ## Actions -/

/-- What an action removes is removed by another action, too. -/
structure TeardownAction.IsPartOf (action whole : TeardownAction) : Prop where
  objects : ∀ object, action.deletes object = true → whole.deletes object = true
  tables : ∀ table, action.drops table = true → whole.drops table = true
  paths : ∀ pattern ∈ action.forgets, ∃ pattern' ∈ whole.forgets, ∀ path,
    Location.covers pattern path = true → Location.covers pattern' path = true

namespace Location

/-- The place of a cache is that of its tiles, with slots for the tile. -/
theorem tileCache_eq (baseUrl : String) (key : VersionKey) (implementation : String) :
    tileCache baseUrl key implementation "pbf" =
      baseUrl ++ "/" ++ tileCachePrefix key implementation ++
        "\x7bz\x7d/\x7bx\x7d/\x7by\x7d.pbf" := by
  simp only [tileCache, String.append_assoc]
  rfl

theorem covers_star (start path : String) :
    covers ("/" ++ start ++ "*") path = ('/' :: start.toList).isPrefixOf path.toList := by
  have hpattern : ("/" ++ start ++ "*").toList = '/' :: start.toList ++ ['*'] := by simp
  rw [covers, hpattern, List.getLast?_concat, if_pos rfl, List.dropLast_concat]

theorem toList_prefix_append (start rest : String) : start.toList <+: (start ++ rest).toList := by
  rw [String.toList_append]
  exact List.prefix_append _ _

theorem versionPrefix_prefix_tileCachePrefix (key : VersionKey) (implementation : String) :
    (versionPrefix key).toList <+: (tileCachePrefix key implementation).toList := by
  rw [tileCachePrefix, String.append_assoc]
  exact toList_prefix_append _ _

end Location

namespace Teardown

variable {settings : Settings} {key : VersionKey} {a : Asset}

/-! ## Parts of the teardown of a version -/

/-- What is under a longer beginning is under a shorter one. -/
theorem deleteUnder_isPartOf {bucket start start' : String}
    (h : start'.toList <+: start.toList) :
    (TeardownAction.deleteUnder bucket start).IsPartOf (.deleteUnder bucket start') where
  objects := fun object hobject => by
    simp only [TeardownAction.deletes, ObjectService.isUnder, Bool.and_eq_true,
      List.isPrefixOf_iff_prefix] at hobject ⊢
    exact ⟨hobject.1, h.trans hobject.2⟩
  tables := fun _ h => by cases h
  paths := fun _ h => by cases h

theorem deleteObject_isPartOf {bucket text start : String} (h : start.toList <+: text.toList) :
    (TeardownAction.deleteObject bucket text).IsPartOf (.deleteUnder bucket start) where
  objects := fun object hobject => by
    obtain rfl : object = (bucket, text) := by
      simpa only [TeardownAction.deletes, beq_iff_eq] using hobject
    simp only [TeardownAction.deletes, ObjectService.isUnder, Bool.and_eq_true, beq_iff_eq,
      List.isPrefixOf_iff_prefix]
    exact ⟨trivial, h⟩
  tables := fun _ h => by cases h
  paths := fun _ h => by cases h

theorem invalidatePath_isPartOf {start start' : String} (h : start'.toList <+: start.toList) :
    (invalidatePath settings ("/" ++ start ++ "*")).IsPartOf
      (invalidatePath settings ("/" ++ start' ++ "*")) where
  objects := fun _ h => by cases h
  tables := fun _ h => by cases h
  paths := fun pattern hpattern => by
    obtain rfl := List.mem_singleton.mp hpattern
    refine ⟨_, List.mem_singleton_self _, fun path hpath => ?_⟩
    rw [Location.covers_star, List.isPrefixOf_iff_prefix] at hpath ⊢
    exact (List.cons_prefix_cons.mpr ⟨rfl, h⟩).trans hpath

/-- All that some actions remove is removed with a version. -/
def IsPartOfVersion (settings : Settings) (key : VersionKey) (actions : List TeardownAction) :
    Prop :=
  ∀ action ∈ actions, ∃ whole ∈ ofVersion settings key, action.IsPartOf whole

/-! ## What is removed with an asset -/

/-- The actions remove what is at the place of an asset: the table of its version, the object that
is the asset, or what its tiles are kept and served under. -/
inductive Empties (settings : Settings) (a : Asset) : List TeardownAction → Prop where
  | table (type : a.type.isDatabase = true) :
    Empties settings a [.dropTable a.key.dataset a.key.version]
  | file {text : String} (type : a.type = .shapefile ∨ a.type = .geopackage)
    (uri : a.uri = "s3://" ++ settings.dataLakeBucket ++ "/" ++ text) :
    Empties settings a [.deleteObject settings.dataLakeBucket text]
  | staticTiles {start : String} (type : a.type = .staticVectorTileCache)
    (uri : a.uri = settings.tileCacheUrl ++ "/" ++ start ++ "\x7bz\x7d/\x7bx\x7d/\x7by\x7d.pbf") :
    Empties settings a [.deleteUnder settings.tileCacheBucket start,
      invalidatePath settings ("/" ++ start ++ "*")]
  | dynamicTiles {start : String} (type : a.type = .dynamicVectorTileCache)
    (uri : a.uri = settings.tileCacheUrl ++ "/" ++ start ++ "\x7bz\x7d/\x7bx\x7d/\x7by\x7d.pbf") :
    Empties settings a [invalidatePath settings ("/" ++ start ++ "*")]

section

variable (hmanaged : a.isManaged = true)

include hmanaged

theorem ofAsset_table (type : a.type.isDatabase = true) :
    ofAsset settings a = .ok [.dropTable a.key.dataset a.key.version] := by
  rw [ofAsset, hmanaged]
  rcases AssetType.eq_of_isDatabase type with h | h <;> rw [h] <;> rfl

/-- A file is torn down if its place is that of an object. -/
theorem ofAsset_file_iff {extension : String} (type : a.type.fileExtension? = some extension)
    {actions : List TeardownAction} : ofAsset settings a = .ok actions ↔ ∃ bucket text,
      Location.bucketAndKey? a.uri = some (bucket, text) ∧
        actions = [.deleteObject bucket text] := by
  have hfile : ofAsset settings a = (orElseFail
      (.invalidOptions ("asset URI " ++ a.uri ++ " is not an object URI"))
        (Location.bucketAndKey? a.uri) >>=
          fun object => pure [.deleteObject object.1 object.2]) := by
    rw [ofAsset, hmanaged]
    rcases AssetType.eq_of_fileExtension? type with ⟨h, _⟩ | ⟨h, _⟩ <;> rw [h] <;> rfl
  simp only [hfile, bind_eq_ok_iff, orElseFail_eq_ok_iff, Prod.exists]
  constructor
  · rintro ⟨bucket, text, hobject, h⟩
    cases h
    exact ⟨bucket, text, hobject, rfl⟩
  · rintro ⟨bucket, text, hobject, rfl⟩
    exact ⟨bucket, text, hobject, rfl⟩

theorem ofAsset_staticTiles {t : StaticTiles} (type : a.type = .staticVectorTileCache)
    (options : a.options = some (.staticTiles t)) : ofAsset settings a =
      .ok [.deleteUnder settings.tileCacheBucket (Location.tileCachePrefix a.key t.implementation),
        invalidatePath settings (Location.tileCachePath a.key t.implementation)] := by
  rw [ofAsset, hmanaged, type, options]
  rfl

theorem ofAsset_dynamicTiles {t : DynamicTiles} (type : a.type = .dynamicVectorTileCache)
    (options : a.options = some (.dynamicTiles t)) : ofAsset settings a =
      .ok [invalidatePath settings (Location.tileCachePath a.key t.implementation)] := by
  rw [ofAsset, hmanaged, type, options]
  rfl

end

/-- A planned asset can be torn down where it is. -/
theorem exists_ofAsset (ha : a.IsPlanned settings)
    (hbucket : Location.IsBucket settings.dataLakeBucket) :
    ∃ actions, ofAsset settings a = .ok actions ∧ Empties settings a actions ∧
      IsPartOfVersion settings a.key actions := by
  have hpath : ∀ implementation, (invalidatePath settings
      (Location.tileCachePath a.key implementation)).IsPartOf
        (invalidatePath settings (Location.versionPath a.key)) := fun implementation =>
    invalidatePath_isPartOf (Location.versionPrefix_prefix_tileCachePrefix a.key implementation)
  cases ha.lies with
  | table type =>
    refine ⟨_, ofAsset_table ha.isManaged type, .table type, fun action haction => ?_⟩
    rw [List.mem_singleton.mp haction]
    exact ⟨_, List.mem_cons_self, fun _ h => h, fun _ h => h, fun _ h => by cases h⟩
  | @file f extension type _ _ uri =>
    have htype := (AssetType.eq_of_fileExtension? type).imp And.left And.left
    have hobject := Location.bucketAndKey?_vectorFile hbucket a.key extension
    rw [← uri] at hobject
    refine ⟨_, (ofAsset_file_iff ha.isManaged type).mpr ⟨_, _, hobject, rfl⟩,
      .file htype (uri.trans (Location.vectorFile_eq _ a.key extension)), fun action haction => ?_⟩
    rw [List.mem_singleton.mp haction]
    exact ⟨_, List.mem_cons_of_mem _ List.mem_cons_self,
      deleteObject_isPartOf (Location.toList_prefix_append _ _)⟩
  | @staticTiles t type _ options uri =>
    refine ⟨_, ofAsset_staticTiles ha.isManaged type options,
      .staticTiles type (uri.trans (Location.tileCache_eq _ _ _)), fun action haction => ?_⟩
    rcases List.mem_pair.mp haction with rfl | rfl
    · exact ⟨.deleteUnder settings.tileCacheBucket (Location.versionPrefix a.key),
        by simp [ofVersion],
        deleteUnder_isPartOf (Location.versionPrefix_prefix_tileCachePrefix a.key _)⟩
    · exact ⟨_, by simp [ofVersion], hpath t.implementation⟩
  | @dynamicTiles t type _ options uri =>
    refine ⟨_, ofAsset_dynamicTiles ha.isManaged type options,
      .dynamicTiles type (uri.trans (Location.tileCache_eq _ _ _)), fun action haction => ?_⟩
    rw [List.mem_singleton.mp haction]
    exact ⟨_, by simp [ofVersion], hpath t.implementation⟩

end Teardown

/-! ## Deletions -/

/-- An asset that can be torn down is deleted, unless it is a default one. -/
theorem Command.deleteAsset_run_of_ofAsset {w : World} {id : AssetId} {a : Asset}
    {actions : List TeardownAction} (ha : w.store.assets.get? id = some a)
    (hdefault : a.isDefault = false) (hactions : Teardown.ofAsset w.settings a = .ok actions) :
    (deleteAsset id).flow.run w = (.ok (some (.assetTeardown a actions)),
      { w with store := w.store.removeAsset a }) := by
  have hasset : w.store.asset id = .ok a := by
    rw [Store.asset, ha]
    rfl
  have hrequire : require (!a.isDefault) (Store.defaultAssetConflict a) = .ok () := by
    rw [hdefault]
    rfl
  have hdelete : w.store.deleteAsset id = .ok (a, w.store.removeAsset a) := by
    rw [Store.deleteAsset, hasset]
    show (require _ _ >>= _) = _
    rw [hrequire]
    rfl
  have hrun : (Request.deleteAsset id).run w =
      (.ok (a, .assetTeardown a actions), { w with store := w.store.removeAsset a }) := by
    unfold Request.deleteAsset
    rw [Flow.run_check_read_bind, hasset, Flow.run_check_ok_bind, hrequire, Flow.run_check_ok_bind,
      Flow.run_read_bind, hactions, Flow.run_check_ok_bind, Flow.run_takeFromStore_bind_ok hdelete]
    rfl
  show (Request.deleteAsset id >>= fun answer => pure (some answer.2)).run w = _
  rw [Flow.run_bind, hrun]
  rfl

namespace Orchestrator

/-- Assets can be torn down where they are, and be deleted if they are not default ones. -/
structure TearsDownAssets (o : Orchestrator) (settings : Settings) : Prop where
  /-- Whatever a caller creates is one of the assets. -/
  created : ∀ c a g, (o.request c.flow).1 = .ok (some (.pipeline a g)) →
    (o.handle (.command c)).world.ids.Distinct →
      (o.handle (.command c)).world.store.assets.get? a.id = some a
  teardown : ∀ x a, o.world.store.assets.get? x = some a → ∃ actions,
    Teardown.ofAsset settings a = .ok actions ∧ Teardown.Empties settings a actions ∧
      Teardown.IsPartOfVersion settings a.key actions
  deletion : ∀ x a, o.world.store.assets.get? x = some a → a.isDefault = false → ∃ actions,
    Teardown.ofAsset settings a = .ok actions ∧
      (o.request (Command.deleteAsset x).flow).1 = .ok (some (.assetTeardown a actions)) ∧
      (o.handle (.command (.deleteAsset x))).workAt o.background.started =
        some (.tearDown actions none)

variable {o : Orchestrator}

/-- The asset for which a pipeline is started is filed. -/
theorem Sound.get?_of_pipeline (hs : o.Sound) {c : Command} {a : Asset} {g : JobGraph}
    (h : (o.request c.flow).1 = .ok (some (.pipeline a g)))
    (hd : (o.handle (.command c)).world.ids.Distinct) :
    (o.handle (.command c)).world.store.assets.get? a.id = some a := by
  obtain ⟨ops, he, hh⟩ := handle_cases hs (.command c) hd
  generalize o.handle (.command c) = o' at he hh
  cases hh with
  | obeyed _ hanswer =>
    rw [h] at hanswer
    cases hanswer
  | @begun _ _ work _ hobeys hanswer =>
    rw [h] at hanswer
    cases hanswer
    have hcopy := Work.copy?_pipeline a g
    rcases hobeys.work with ⟨_, hactivity⟩ | ⟨op, b, g', rfl, hfiles, _, _, hwork⟩
    · rw [hactivity] at hcopy
      cases hcopy
    · rw [hwork, Work.copy?_pipeline] at hcopy
      cases hcopy
      exact he.store.asset_of_files hfiles
  | idled hcommand => exact absurd rfl (hcommand c)

/-- In every state of every run assets are torn down where they are, if files have a bucket. -/
theorem initial_tearsDownAssets {settings : Settings} {now : Timestamp} {ids : IdSupply}
    {es : List Event} (hbucket : Location.IsBucket settings.dataLakeBucket)
    (hd : ((initial settings now ids).after es).world.ids.Distinct) :
    ((initial settings now ids).after es).TearsDownAssets settings := by
  have hs := (initial_sound settings now ids).after hd
  have hplanned := hasPlanned_after hd
  have hsettings : ((initial settings now ids).after es).world.settings = settings :=
    after_settings _ es
  generalize (initial settings now ids).after es = o at hs hplanned hsettings
  have hteardown : ∀ x a, o.world.store.assets.get? x = some a → ∃ actions,
      Teardown.ofAsset settings a = .ok actions ∧ Teardown.Empties settings a actions ∧
        Teardown.IsPartOfVersion settings a.key actions := by
    intro x a ha
    have h := hplanned x a ha
    rw [hsettings] at h
    exact Teardown.exists_ofAsset h hbucket
  refine ⟨fun c a g h hd' => hs.get?_of_pipeline h hd', hteardown, fun x a ha hdefault => ?_⟩
  obtain ⟨actions, hactions, _⟩ := hteardown x a ha
  have hrun := Command.deleteAsset_run_of_ofAsset ha hdefault (by rwa [hsettings])
  have hanswer : (o.request (Command.deleteAsset x).flow).1 =
      .ok (some (.assetTeardown a actions)) := by
    unfold request
    rw [hrun]
  exact ⟨actions, hactions, hanswer, ((obey_of_ok hanswer).2 _ rfl).1⟩

/-! ## A state -/

namespace Sample

/-- The table has a column. -/
def columnLoaded : Event :=
  .surround {
    now := ⟨0, 0⟩
    services := { database := { tables := ⟨[(("d", "v1"), [⟨"name", "text"⟩])]⟩ } }
    refused := []
    histories := {}
    rejectedTaskWrites := 0 }

/-- A table was saved whose column can be exported. -/
def fieldSaved : List Event :=
  datasetFiled ++ columnLoaded :: .command createTable :: tableSaved

/-- An asset is derived from the table of a version. -/
def derive (version : String) (type : AssetType) (options : List (String × Json)) : Command :=
  .createAsset ⟨"d", version⟩ type (.object options)

/-- Rendered tiles of one version, and a cache for the tiles of another. -/
def cachesDerived : List Event :=
  fieldSaved ++ [.command (derive "v1" .staticVectorTileCache []),
    .command (createTableOf ⟨"d", "v2"⟩), .command (derive "v2" .dynamicVectorTileCache [])]

/-- The assets with their places, and whether they can be torn down. -/
def places (o : Orchestrator) : List (AssetType × String × Bool) :=
  o.world.store.assets.values.map fun a =>
    (a.type, a.uri, !isError (Teardown.ofAsset o.world.settings a))

end Sample

set_option maxRecDepth 100000 in
theorem cachesDerived_tearsDownAssets : ∃ o, o = Sample.start.after Sample.cachesDerived ∧
    Location.IsBucket Settings.standard.dataLakeBucket ∧ o.world.ids.Distinct ∧
      Sample.places o = [(.databaseTable, "/d/v1/features", true),
        (.staticVectorTileCache,
          "http://localhost:8088/d/v1/default/\x7bz\x7d/\x7bx\x7d/\x7by\x7d.pbf", true),
        (.databaseTable, "/d/v2/features", true),
        (.dynamicVectorTileCache,
          "http://localhost:8088/d/v2/dynamic/\x7bz\x7d/\x7bx\x7d/\x7by\x7d.pbf", true)] ∧
      o.TearsDownAssets .standard := by
  have hbucket : Location.IsBucket Settings.standard.dataLakeBucket := ⟨by decide, by decide⟩
  have hd : (Sample.start.after Sample.cachesDerived).world.ids.Distinct := by decide +kernel
  refine ⟨_, rfl, hbucket, hd, ?_, initial_tearsDownAssets hbucket hd⟩
  decide +kernel

end Orchestrator

end GeoAssets
