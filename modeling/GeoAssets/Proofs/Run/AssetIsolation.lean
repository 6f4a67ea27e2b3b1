import GeoAssets.Proofs.Run.AssetTeardown

/-!
# What the teardown of an asset does to other assets

The assets of a version are at different places, but the prefix of a tile cache is made from a name
that may contain the separator. So the prefix of one cache may begin that of another
(`Asset.Overlaps`), and then the teardown of the one reaches the tiles of the other; else the
teardown of an asset reaches nothing of another asset (`Teardown.sparesAsset_iff`). Assets whose
names are plain do not overlap, as long as files and tiles are kept in different buckets.
-/

namespace GeoAssets

/-! ## Locations of assets -/

/-- The name under which the tiles of an asset are served or kept, if it has tiles. -/
def Asset.implementation? (a : Asset) : Option String :=
  a.options.bind (·.implementation?)

/-- An object is at the location of an asset: the place of the asset names the object, or it is one
of the tiles of the asset. -/
def Asset.Holds (settings : Settings) (a : Asset) (object : String × String) : Prop :=
  Location.bucketAndKey? a.uri = some object ∨ ∃ name, a.implementation? = some name ∧
    ObjectService.isUnder settings.tileCacheBucket (Location.tileCachePrefix a.key name) object =
      true

/-- What is removed with an asset overlaps with the location of another asset. -/
inductive Asset.Overlaps (settings : Settings) (a b : Asset) : Prop where
  /-- One of the prefixes of tiles that were rendered and of other tiles begins the other. -/
  | tiles {t : StaticTiles} {name : String} (ha : a.options = some (.staticTiles t))
    (hb : b.implementation? = some name)
    (h : (Location.tileCachePrefix a.key t.implementation).toList <+:
        (Location.tileCachePrefix b.key name).toList ∨
      (Location.tileCachePrefix b.key name).toList <+:
        (Location.tileCachePrefix a.key t.implementation).toList)
  /-- The prefix of tiles that were rendered begins the key of an object. -/
  | object {t : StaticTiles} {text : String} (ha : a.options = some (.staticTiles t))
    (hb : Location.bucketAndKey? b.uri = some (settings.tileCacheBucket, text))
    (h : (Location.tileCachePrefix a.key t.implementation).toList <+: text.toList)
  /-- The key of a file is under the prefix of tiles. -/
  | file {extension text name : String} (ha : a.type.fileExtension? = some extension)
    (hobject : Location.bucketAndKey? a.uri = some (settings.tileCacheBucket, text))
    (hb : b.implementation? = some name)
    (h : (Location.tileCachePrefix b.key name).toList <+: text.toList)

namespace Teardown

/-- No action removes an object at the location of an asset. -/
def SparesAsset (settings : Settings) (actions : List TeardownAction) (b : Asset) : Prop :=
  ∀ action ∈ actions, ∀ object, b.Holds settings object → action.deletes object = false

variable {settings : Settings} {a b : Asset} {actions : List TeardownAction}

theorem isUnder_iff {bucket start : String} {object : String × String} :
    ObjectService.isUnder bucket start object = true ↔
      object.1 = bucket ∧ start.toList <+: object.2.toList := by
  simp only [ObjectService.isUnder, Bool.and_eq_true, beq_iff_eq, List.isPrefixOf_iff_prefix]

/-- Rendered tiles are removed without reaching another asset if they do not overlap. -/
theorem sparesAsset_staticTiles {t : StaticTiles} (options : a.options = some (.staticTiles t))
    (type : a.type = .staticVectorTileCache) {path : TeardownAction}
    (hpath : ∀ object, path.deletes object = false) :
    SparesAsset settings [.deleteUnder settings.tileCacheBucket
      (Location.tileCachePrefix a.key t.implementation), path] b ↔ ¬ a.Overlaps settings b := by
  constructor
  · intro h hoverlaps
    -- an object that is at both locations
    have hshared : ∃ object, b.Holds settings object ∧
        ObjectService.isUnder settings.tileCacheBucket
          (Location.tileCachePrefix a.key t.implementation) object = true := by
      cases hoverlaps with
      | @tiles t' name ha hb hnested =>
        cases options.symm.trans ha
        rcases hnested with hnested | hnested
        · exact ⟨(_, Location.tileCachePrefix b.key name),
            Or.inr ⟨name, hb, isUnder_iff.mpr ⟨rfl, List.prefix_refl _⟩⟩,
            isUnder_iff.mpr ⟨rfl, hnested⟩⟩
        · exact ⟨(_, Location.tileCachePrefix a.key t.implementation),
            Or.inr ⟨name, hb, isUnder_iff.mpr ⟨rfl, hnested⟩⟩,
            isUnder_iff.mpr ⟨rfl, List.prefix_refl _⟩⟩
      | object ha hb hunder =>
        cases options.symm.trans ha
        exact ⟨_, Or.inl hb, isUnder_iff.mpr ⟨rfl, hunder⟩⟩
      | file ha =>
        rw [type] at ha
        cases ha
    obtain ⟨object, hholds, hunder⟩ := hshared
    have hno := h _ List.mem_cons_self object hholds
    rw [TeardownAction.deletes, hunder] at hno
    cases hno
  · intro hno action haction object hholds
    rcases List.mem_pair.mp haction with rfl | rfl
    · rw [Bool.eq_false_iff]
      intro hunder
      obtain ⟨hbucket, hstart⟩ := isUnder_iff.mp hunder
      rcases hholds with hobject | ⟨name, hb, hunder'⟩
      · refine hno (.object options ?_ hstart)
        rw [← hbucket]
        exact hobject
      · exact hno (.tiles options hb
          (List.prefix_or_prefix_of_prefix hstart (isUnder_iff.mp hunder').2))
    · exact hpath object

/-- A file is removed without reaching an asset at another place if they do not overlap. -/
theorem sparesAsset_file {extension bucket text : String}
    (type : a.type.fileExtension? = some extension) (hno : ∀ t, a.options ≠ some (.staticTiles t))
    (hobject : Location.bucketAndKey? a.uri = some (bucket, text)) (hne : a.uri ≠ b.uri) :
    SparesAsset settings [.deleteObject bucket text] b ↔ ¬ a.Overlaps settings b := by
  constructor
  · intro h hoverlaps
    cases hoverlaps with
    | tiles ha | object ha => exact hno _ ha
    | @file _ text' name _ hobject' hb hunder =>
      cases hobject.symm.trans hobject'
      have hspared := h _ List.mem_cons_self (settings.tileCacheBucket, text)
        (Or.inr ⟨name, hb, isUnder_iff.mpr ⟨rfl, hunder⟩⟩)
      simp [TeardownAction.deletes] at hspared
  · intro hno action haction object hholds
    rw [List.mem_singleton.mp haction, Bool.eq_false_iff]
    intro hdeletes
    obtain rfl : object = (bucket, text) := by
      simpa only [TeardownAction.deletes, beq_iff_eq] using hdeletes
    rcases hholds with hobject' | ⟨name, hb, hunder⟩
    · exact hne (Location.bucketAndKey?_inj hobject hobject')
    · obtain ⟨rfl, hstart⟩ := isUnder_iff.mp hunder
      exact hno (.file type hobject hb hstart)

/-- The teardown of a planned asset spares an asset at another place exactly if they do not
overlap. -/
theorem sparesAsset_iff (ha : a.IsPlanned settings) (hne : a.uri ≠ b.uri)
    (hactions : ofAsset settings a = .ok actions) :
    SparesAsset settings actions b ↔ ¬ a.Overlaps settings b := by
  -- without objects there is nothing to overlap with
  have hnothing : (∀ t, a.options ≠ some (.staticTiles t)) → a.type.fileExtension? = none →
      (∀ action ∈ actions, ∀ object, action.deletes object = false) →
        (SparesAsset settings actions b ↔ ¬ a.Overlaps settings b) := by
    intro hoptions htype hdeletes
    constructor
    · intro _ hoverlaps
      cases hoverlaps with
      | tiles ha | object ha => exact hoptions _ ha
      | file ha =>
        rw [htype] at ha
        cases ha
    · exact fun _ action haction object _ => hdeletes action haction object
  cases ha.lies with
  | table type _ options source =>
    rw [ofAsset_table ha.isManaged type] at hactions
    cases hactions
    refine hnothing ?_ ?_ fun action haction object => ?_
    · rintro t ht
      cases options.symm.trans ht
      rcases source with ⟨_, h⟩ | ⟨_, h⟩ <;> cases h
    · rcases AssetType.eq_of_isDatabase type with h | h <;> rw [h] <;> rfl
    · rw [List.mem_singleton.mp haction]
      rfl
  | dynamicTiles type _ options =>
    rw [ofAsset_dynamicTiles ha.isManaged type options] at hactions
    cases hactions
    refine hnothing ?_ ?_ fun action haction object => ?_
    · rintro t ht
      cases options.symm.trans ht
    · rw [type]
      rfl
    · rw [List.mem_singleton.mp haction]
      rfl
  | staticTiles type _ options =>
    rw [ofAsset_staticTiles ha.isManaged type options] at hactions
    cases hactions
    exact sparesAsset_staticTiles options type fun _ => rfl
  | file type _ options =>
    obtain ⟨bucket, text, hobject, rfl⟩ := (ofAsset_file_iff ha.isManaged type).mp hactions
    refine sparesAsset_file type (fun t ht => ?_) hobject hne
    cases options.symm.trans ht

end Teardown

/-! ## Plain names -/

/-- Tiles are not kept with files, and the places where they are served are no objects. -/
structure Settings.SeparatesTiles (settings : Settings) : Prop where
  isBucket : Location.IsBucket settings.dataLakeBucket
  ne : settings.dataLakeBucket ≠ settings.tileCacheBucket
  url : ∀ path, Location.bucketAndKey? (settings.tileCacheUrl ++ "/" ++ path) = none

/-- The separator is not in the name of the tiles. -/
def Asset.HasPlainName (a : Asset) : Prop :=
  ∀ name, a.implementation? = some name → '/' ∉ name.toList

namespace Location

/-- A prefix that begins that of other tiles of the same version shows their name, if the names are
plain. -/
theorem eq_of_tileCachePrefix_prefix {key : VersionKey} {name name' : String}
    (hname : '/' ∉ name.toList) (hname' : '/' ∉ name'.toList)
    (h : (tileCachePrefix key name).toList <+: (tileCachePrefix key name').toList) :
    name = name' := by
  have hsplit : ∀ name, (tileCachePrefix key name).toList =
      (versionPrefix key).toList ++ (name.toList ++ '/' :: []) := by
    intro name
    simp [tileCachePrefix]
  rw [hsplit, hsplit, List.prefix_append_right_inj] at h
  exact String.toList_inj.mp (eq_of_append_separator hname hname' h).1

end Location

namespace Asset.IsPlanned

variable {settings : Settings} {a b : Asset}

/-- Tiles are served under their name. -/
theorem uri_of_implementation (ha : a.IsPlanned settings) {name : String}
    (hname : a.implementation? = some name) :
    a.uri = Location.tileCache settings.tileCacheUrl a.key name "pbf" := by
  unfold implementation? at hname
  cases ha.lies with
  | table _ _ options source =>
    rw [options] at hname
    rcases source with ⟨_, rfl⟩ | ⟨_, rfl⟩ <;> cases hname
  | dynamicTiles _ _ options uri | staticTiles _ _ options uri =>
    rw [options] at hname
    cases hname
    exact uri
  | file _ _ options =>
    rw [options] at hname
    cases hname

/-- Only files are objects. -/
theorem bucket_eq (ha : a.IsPlanned settings) (hs : settings.SeparatesTiles)
    {bucket text : String} (h : Location.bucketAndKey? a.uri = some (bucket, text)) :
    bucket = settings.dataLakeBucket := by
  cases ha.lies with
  | table _ _ _ _ uri =>
    rw [uri, Location.bucketAndKey?_eq_some_iff, ← String.toList_inj] at h
    simp [Location.features] at h
  | dynamicTiles _ _ _ uri | staticTiles _ _ _ uri =>
    rw [uri, Location.tileCache_eq, String.append_assoc, hs.url] at h
    cases h
  | @file _ extension _ _ _ uri =>
    rw [uri, Location.bucketAndKey?_vectorFile hs.isBucket] at h
    cases h
    rfl

/-- Assets of one version with plain names do not overlap. -/
theorem not_overlaps (ha : a.IsPlanned settings) (hb : b.IsPlanned settings)
    (hs : settings.SeparatesTiles) (hkey : a.key = b.key) (hne : a.uri ≠ b.uri)
    (hplain : a.HasPlainName) (hplain' : b.HasPlainName) : ¬ a.Overlaps settings b := by
  intro h
  cases h with
  | @tiles t name options himplementation h =>
    have hname : a.implementation? = some t.implementation := by
      rw [implementation?, options]
      rfl
    rw [hkey] at h
    have heq : t.implementation = name := h.elim
      (Location.eq_of_tileCachePrefix_prefix (hplain _ hname) (hplain' _ himplementation))
      fun h => (Location.eq_of_tileCachePrefix_prefix (hplain' _ himplementation)
        (hplain _ hname) h).symm
    refine hne ?_
    rw [ha.uri_of_implementation hname, hb.uri_of_implementation himplementation, hkey, heq]
  | object _ hobject => exact hs.ne (hb.bucket_eq hs hobject).symm
  | file _ hobject => exact hs.ne (ha.bucket_eq hs hobject).symm

end Asset.IsPlanned

/-! ## Runs -/

namespace Orchestrator

/-- The teardown of an asset spares the other assets of its version. -/
def IsolatesAssets (o : Orchestrator) (settings : Settings) : Prop :=
  ∀ x a y b actions, o.world.store.assets.get? x = some a → o.world.store.assets.get? y = some b →
    x ≠ y → a.key = b.key → Teardown.ofAsset settings a = .ok actions →
      Teardown.SparesAsset settings actions b

/-- The teardown of an asset spares exactly the other assets that it does not overlap with. Those of
its version are among them if the names are plain. -/
structure IsolatesAssetsUnlessOverlap (o : Orchestrator) (settings : Settings) : Prop where
  spares_iff : ∀ x a y b actions, o.world.store.assets.get? x = some a →
    o.world.store.assets.get? y = some b → x ≠ y → Teardown.ofAsset settings a = .ok actions →
      (Teardown.SparesAsset settings actions b ↔ ¬ a.Overlaps settings b)
  plain : settings.SeparatesTiles → ∀ x a y b actions, o.world.store.assets.get? x = some a →
    o.world.store.assets.get? y = some b → x ≠ y → a.key = b.key → a.HasPlainName →
      b.HasPlainName → Teardown.ofAsset settings a = .ok actions →
        Teardown.SparesAsset settings actions b

/-- In every state of every run the assets of a version are isolated from each other unless they
overlap. -/
theorem initial_isolatesAssetsUnlessOverlap {settings : Settings} {now : Timestamp}
    {ids : IdSupply} {es : List Event}
    (hd : ((initial settings now ids).after es).world.ids.Distinct) :
    ((initial settings now ids).after es).IsolatesAssetsUnlessOverlap settings := by
  have hw := ((initial_sound settings now ids).after hd).world.wellFormed
  have hplanned := hasPlanned_after hd
  have hsettings : ((initial settings now ids).after es).world.settings = settings :=
    after_settings _ es
  generalize (initial settings now ids).after es = o at hw hplanned hsettings
  unfold HasPlanned at hplanned
  rw [hsettings] at hplanned
  constructor
  · intro x a y b actions ha hb hne hactions
    exact Teardown.sparesAsset_iff (hplanned x a ha) (hw.uri_ne ha hb hne) hactions
  · intro hs x a y b actions ha hb hne hkey hplain hplain' hactions
    have huri := hw.uri_ne ha hb hne
    rw [Teardown.sparesAsset_iff (hplanned x a ha) huri hactions]
    exact (hplanned x a ha).not_overlaps (hplanned y b hb) hs hkey huri hplain hplain'

/-! ## A state -/

/-- The settings of a single machine keep tiles apart. -/
theorem standard_separatesTiles : Settings.standard.SeparatesTiles where
  isBucket := ⟨by decide, by decide⟩
  ne := by decide
  url := fun path => by
    rw [Option.eq_none_iff_forall_ne_some]
    rintro ⟨bucket, key⟩ h
    rw [Location.bucketAndKey?_eq_some_iff, ← String.toList_inj] at h
    simp [Settings.standard] at h

/-- A derived asset is created if it can be planned and filed, whatever its jobs are. -/
theorem exists_derived {o : Orchestrator} {key : VersionKey} {type : AssetType} {json : Json}
    {a : Asset} (hplan : Prod.fst <$> o.world.planDerived key type json = .ok a)
    (hfiled : (o.world.store.createAsset a).isOk = true) :
    ∃ g, o.world.planDerived key type json = .ok (a, g) ∧
      (o.request (Command.createAsset key type json).flow).1 = .ok (some (.pipeline a g)) ∧
        (o.handle (.command (.createAsset key type json))).world = { o.world with
          ids := { o.world.ids with assetsDrawn := o.world.ids.assetsDrawn + 1 }
          store := o.world.store.fileAsset a } := by
  obtain ⟨s, hs⟩ : ∃ s, o.world.store.createAsset a = .ok s := by
    cases h : o.world.store.createAsset a with
    | ok s => exact ⟨s, rfl⟩
    | error e =>
      rw [h] at hfiled
      cases hfiled
  obtain ⟨b, g, hplanned, rfl⟩ : ∃ b g, o.world.planDerived key type json = .ok (b, g) ∧ b = a := by
    cases h : o.world.planDerived key type json with
    | ok planned =>
      rw [h] at hplan
      exact ⟨planned.1, planned.2, rfl, Except.ok.inj hplan⟩
    | error e =>
      rw [h] at hplan
      cases hplan
  have hrun := Command.createAsset_run_of_planDerived hplanned hs
  have hanswer : (o.request (Command.createAsset key type json).flow).1 =
      .ok (some (.pipeline b g)) := congrArg Prod.fst hrun
  obtain ⟨_, _, _, _, rfl⟩ := Store.createAsset_eq_ok hs
  exact ⟨g, hplanned, hanswer, congrArg Prod.snd ((obey_of_ok hanswer).1.symm.trans hrun)⟩

namespace Sample

/-- Tiles are rendered under a name. -/
def render (name : String) : Command :=
  derive "v1" .staticVectorTileCache [("implementation", .string name)]

/-- Tiles were rendered under one name. -/
def rendered : List Event :=
  fieldSaved ++ [.command (render "a")]

/-- The asset of tiles that were rendered under a name. -/
def tiles (number : Nat) (name : String) : Asset :=
  .create (ids.asset number) ⟨"d", "v1"⟩ .staticVectorTileCache
    (Location.tileCache Settings.standard.tileCacheUrl ⟨"d", "v1"⟩ name "pbf")
    (.staticTiles { implementation := name }) ⟨0, 0⟩

/-- Tiles were rendered under a name that begins with that of other tiles. -/
def bothRendered : List Event :=
  rendered ++ [.command (render "a/b")]

set_option maxRecDepth 100000 in
/-- The second tiles are created beside the first ones. -/
theorem render_nested : ∃ g,
    (start.after rendered).world.planDerived ⟨"d", "v1"⟩ .staticVectorTileCache
        (.object [("implementation", .string "a/b")]) = .ok (tiles 2 "a/b", g) ∧
      ((start.after rendered).request (render "a/b").flow).1 =
          .ok (some (.pipeline (tiles 2 "a/b") g)) ∧
        (start.after bothRendered).world = { (start.after rendered).world with
          ids := { (start.after rendered).world.ids with
            assetsDrawn := (start.after rendered).world.ids.assetsDrawn + 1 }
          store := (start.after rendered).world.store.fileAsset (tiles 2 "a/b") } := by
  rw [bothRendered, after_append]
  refine exists_derived ?_ (by decide +kernel)
  set w := (start.after rendered).world with hw
  have hsorted : w.store.assetsOf ⟨"d", "v1"⟩ =
      w.store.assets.values.filter (·.key == ⟨"d", "v1"⟩) :=
    Store.assetsOf_of_pairwise (by decide +kernel)
  unfold World.planDerived
  rw [hsorted]
  decide +kernel

set_option maxRecDepth 100000 in
theorem bothRendered_distinct : (start.after bothRendered).world.ids.Distinct := by
  obtain ⟨g, _, _, hworld⟩ := render_nested
  rw [hworld]
  decide +kernel

set_option maxRecDepth 100000 in
theorem get?_bothRendered : ∀ p ∈ [(1, "a"), (2, "a/b")],
    (start.after bothRendered).world.store.assets.get? (ids.asset p.1) =
      some (tiles p.1 p.2) := by
  obtain ⟨g, _, _, hworld⟩ := render_nested
  rw [hworld]
  decide +kernel

end Sample

set_option maxRecDepth 100000 in
theorem bothRendered_isolatesAssetsUnlessOverlap : ∃ o, o = Sample.start.after Sample.bothRendered ∧
    o.world.ids.Distinct ∧ Settings.standard.SeparatesTiles ∧
      (∀ p ∈ [(1, "a"), (2, "a/b")],
        o.world.store.assets.get? (Sample.ids.asset p.1) = some (Sample.tiles p.1 p.2)) ∧
      o.IsolatesAssetsUnlessOverlap .standard :=
  ⟨_, rfl, Sample.bothRendered_distinct, standard_separatesTiles, Sample.get?_bothRendered,
    initial_isolatesAssetsUnlessOverlap Sample.bothRendered_distinct⟩

/-- The teardown of tiles reaches other tiles whose name begins with theirs. -/
theorem bothRendered_not_isolatesAssets :
    ¬ (Sample.start.after Sample.bothRendered).IsolatesAssets .standard := by
  intro h
  have houter := Sample.get?_bothRendered (1, "a") (by simp)
  have hinner := Sample.get?_bothRendered (2, "a/b") (by simp)
  have hactions : Teardown.ofAsset .standard (Sample.tiles 1 "a") = _ :=
    Teardown.ofAsset_staticTiles rfl rfl rfl
  -- a tile of the second asset
  have hspared := h _ _ _ _ _ houter hinner (by decide) rfl hactions _ List.mem_cons_self
    ("strata-tile-cache", "d/v1/a/b/0/0/0.pbf") (Or.inr ⟨"a/b", rfl, by decide⟩)
  revert hspared
  decide

end Orchestrator

end GeoAssets
