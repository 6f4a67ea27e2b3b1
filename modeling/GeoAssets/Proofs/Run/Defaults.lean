import GeoAssets.Proofs.Run.History

/-!
# Default assets in runs

Only a request for a version files a default asset, since every version has one as long as it is
there. So the default asset of a version is the table that was planned from its source; its place is
taken, and no other default asset can be filed (`Orchestrator.OwnsDefaults`).
-/

namespace GeoAssets

/-! ## Plans of sources -/

/-- The options are those of a vector source or of a table source. -/
def CreationOptions.IsTableSource (options : CreationOptions) : Prop :=
  (∃ s, options = .vectorSource s) ∨ ∃ s, options = .tableSource s

/-- A managed table with the features of a version, made of a source as its default asset. -/
structure Asset.IsTableOf (a : Asset) (k : VersionKey) (o : CreationOptions) : Prop where
  key : a.key = k
  isDefault : a.isDefault = true
  isManaged : a.isManaged = true
  type : a.type = .databaseTable ∨ a.type = .geoDatabaseTable
  uri : a.uri = Location.features k
  options : a.options = some o
  source : o.IsTableSource

theorem Asset.IsTableOf.becomes {a b : Asset} {k : VersionKey} {o : CreationOptions}
    (h : a.IsTableOf k o) (hb : a.Becomes b) : b.IsTableOf k o := by
  rw [hb.same]
  exact { h with }

/-- What is planned from a source is a table; rasters are refused. -/
theorem Request.planSource_isTableOf {settings : Settings} {now : Timestamp} {id : AssetId}
    {key : VersionKey} {sourceType : String} {json : Json} {a : Asset} {g : JobGraph}
    (h : planSource settings now id key sourceType json = .ok (a, g)) :
    ∃ options, CreationOptions.forSource sourceType json = .ok options ∧
      a.IsTableOf key options := by
  simp only [planSource, bind_eq_ok_iff] at h
  obtain ⟨options, hoptions, a', ha, g', hg, h⟩ := h
  cases h
  refine ⟨options, hoptions, ?_⟩
  simp only [defaultAsset, bind_eq_ok_iff, orElseFail_eq_ok_iff] at ha
  obtain ⟨type, htype, uri, huri, ha⟩ := ha
  cases ha
  cases options with
  | vectorSource s =>
    cases htype
    cases huri
    exact ⟨rfl, rfl, rfl, Or.inr rfl, rfl, rfl, Or.inl ⟨s, rfl⟩⟩
  | tableSource s =>
    cases htype
    cases hs : s.hasCoordinates with
    | true =>
      rw [hs] at huri
      cases huri
      exact ⟨rfl, rfl, rfl, Or.inr rfl, rfl, rfl, Or.inr ⟨s, rfl⟩⟩
    | false =>
      rw [hs] at huri
      cases huri
      exact ⟨rfl, rfl, rfl, Or.inl rfl, rfl, rfl, Or.inr ⟨s, rfl⟩⟩
  | rasterSource grid =>
    -- there is no pipeline for rasters
    simp only [Plan.build, bind_eq_ok_iff] at hg
    obtain ⟨options, hoptions, _, _, _, _, jobs, hjobs, _⟩ := hg
    cases hoptions
    cases hjobs
  | _ => cases htype

/-! ## Filing default assets -/

/-- An asset that is filed beside those of its version is not its default one. -/
theorem Store.Performs.isDefault_of_createAsset {s s' : Store} {a : Asset}
    (h : s.Performs (.createAsset a) s') (hd : s.DefaultsLead) : a.isDefault = false := by
  rw [Bool.eq_false_iff]
  intro hdefault
  have hnone := h.files_default hd rfl hdefault
  cases h with
  | createAsset _ h =>
    obtain ⟨⟨v, hv⟩, _⟩ := createAsset_eq_ok h
    rw [hnone] at hv
    cases hv

/-- An asset is not filed as a default one at a place that is taken. -/
theorem Store.createAsset_of_place {s : Store} {a : Asset} {x : AssetId}
    (hversion : s.versions.contains a.key = true) (hplace : s.places.get? a.uri = some x) :
    s.createAsset a = .error (.alreadyExists "asset"
      (if s.assets.contains a.id then a.id.text else a.uri)) := by
  have htaken : s.places.contains a.uri = true := Directory.contains_iff.mpr ⟨x, hplace⟩
  unfold Store.createAsset Store.requirePlace
  rw [hversion, htaken]
  cases s.assets.contains a.id <;> rfl

namespace Command

/-- A request for a default asset that the store refuses draws an id at most. -/
theorem createDefaultAsset_refused {w : World} (key : VersionKey) (sourceType : String)
    (options : Json) (hno : ∀ a g s, w.planSource key sourceType options = .ok (a, g) →
      w.store.createAsset a ≠ .ok s) :
    ∃ e drawn, (createDefaultAsset key sourceType options).flow.run w =
        (.error e, { w with ids := { w.ids with assetsDrawn := drawn } }) ∧
      ∀ v a g, w.store.versions.get? key = some v →
        w.planSource key sourceType options = .ok (a, g) → w.store.createAsset a = .error e := by
  rcases hr : (createDefaultAsset key sourceType options).flow.run w with ⟨r, w'⟩
  rcases Flow.run_map_cases hr with ⟨_, _, rfl⟩ | ⟨e, h, rfl⟩
  · obtain ⟨a, g, hplan, hcreate⟩ := changes_of_run hr
    exact absurd hcreate (hno a g _ hplan)
  clear hr
  unfold Request.createDefaultAsset at h
  rw [Flow.run_check_read_bind] at h
  rcases Flow.run_check_bind_cases h with ⟨_, _, h⟩ | ⟨e', hversion, he, rfl⟩
  swap
  · cases he
    refine ⟨e, w'.ids.assetsDrawn, rfl, fun v a g hv _ => ?_⟩
    rw [Store.version, hv] at hversion
    cases hversion
  rw [Flow.run_drawAssetId_bind, Flow.run_read_bind, Flow.run_read_bind] at h
  rcases Flow.run_check_bind_cases h with ⟨⟨a, g⟩, hplan, h⟩ | ⟨e', hplan, he, rfl⟩
  swap
  · cases he
    refine ⟨e, _, rfl, fun v b g _ hok => ?_⟩
    cases hplan.symm.trans hok
  rcases Flow.run_updateStore_bind_cases h with ⟨s, hs, h⟩ | ⟨e', hs, he, rfl⟩
  · cases h
  · cases he
    refine ⟨e, _, rfl, fun v b g' _ hok => ?_⟩
    cases hplan.symm.trans hok
    exact hs

end Command

namespace Orchestrator

variable {o : Orchestrator} {e : Event} {x : AssetId} {b : Asset}

/-- A default asset appears only where a caller has asked for its version. -/
theorem exists_createVersion_of_default (hs : o.Sound) (hd : (o.handle e).world.ids.Distinct)
    (hnone : o.world.store.assets.get? x = none)
    (hb : (o.handle e).world.store.assets.get? x = some b) (hdefault : b.isDefault = true) :
    ∃ q, e = .command (.createVersion q) ∧ o.Grants (.createVersion q) ∧
      o.world.store.versions.get? q.key = none ∧ ∃ options,
        CreationOptions.forSource q.sourceType q.options = .ok options ∧
          b.IsTableOf q.key options := by
  have hw := hs.world.wellFormed
  have hlead := hs.world.defaultsLead
  by_cases hcommand : ∃ c, e = .command c
  · obtain ⟨c, rfl⟩ := hcommand
    rcases handle_command_performs hs hd with hstore | ⟨hgrants, op, hasks, hop⟩
    · rw [hstore, hnone] at hb
      cases hb
    obtain ⟨hfiles, hid, _⟩ := hop.asset_of_none hw hnone hb
    cases hasks with
    | createVersion q v a =>
      obtain ⟨a', g, hplan, hcreate⟩ := changes_of_grants hgrants
      obtain ⟨_, hversion, _, hstore⟩ := Store.createVersion_eq_ok hcreate
      refine ⟨q, rfl, hgrants, hversion, ?_⟩
      -- the asset that is there now is the one that was filed
      have hassets : (o.handle (.command (.createVersion q))).world.store.assets =
          o.world.store.assets.insert a'.id a' := by
        rw [hstore]
        split <;> rfl
      rw [hassets, Directory.get?_insert] at hb
      split at hb
      · cases hb
        exact Request.planSource_isTableOf hplan
      · rw [hnone] at hb
        cases hb
    | createDefaultAsset | createAsset =>
      cases hfiles
      rw [hop.isDefault_of_createAsset hlead] at hdefault
      cases hdefault
    | _ => cases hfiles
  · obtain ⟨ops, he, hh⟩ := handle_cases hs e hd
    obtain ⟨op, hmem, a, hfiles, hid⟩ := he.store.exists_files_of_none hw hnone hb
    cases hh with
    | obeyed | begun => exact absurd ⟨_, rfl⟩ hcommand
    | reported | idled => cases hmem
    | stepped _ hm =>
      rcases hm.isRequest hw with ⟨cache, rfl⟩ | hreq
      · have hcache : o.world.store.PerformsAll ([] ++ [.createAsset cache]) _ := he.store
        obtain ⟨s₁, s₂, h₁, hop, _⟩ := hcache.exists_of_append
        obtain ⟨hf, _⟩ := he.store.asset_of_single hw hnone hb
        cases hf
        rw [hop.isDefault_of_createAsset (h₁.defaultsLead hw hlead)] at hdefault
        cases hdefault
      · have := hreq op hmem
        rw [Store.Operation.isRequest_of_files? hfiles] at this
        cases this

/-! ## Runs -/

/-- An asset is the one default asset of a version: the table that was made of the source with which
a caller has asked for the version. -/
structure OwnsDefault (o : Orchestrator) (es : List Event) (k : VersionKey) (x : AssetId)
    (a : Asset) : Prop where
  asset : (o.after es).world.store.assets.get? x = some a
  unique : ∀ y b, (o.after es).world.store.assets.get? y = some b → b.key = k →
    b.isDefault = true → y = x
  /-- The version was created with the source, and has been there ever since. -/
  created : ∃ es₁ q es₂ options, es = es₁ ++ .command (.createVersion q) :: es₂ ∧ q.key = k ∧
    (o.after es₁).Grants (.createVersion q) ∧
    (o.after es₁).world.store.versions.get? k = none ∧
    (∀ es₃, es₃ <+: es₂ → ∃ v, (((o.after es₁).handle
      (.command (.createVersion q))).after es₃).world.store.versions.get? k = some v) ∧
    CreationOptions.forSource q.sourceType q.options = .ok options ∧ a.IsTableOf k options

/-- A request for a default asset is refused and changes nothing, but that an id may be drawn. If
there is the version and its source can be planned, the asset exists already. -/
structure RefusesDefault (o : Orchestrator) (k : VersionKey) (sourceType : String) (options : Json)
    (e : Error) : Prop where
  answer : (o.request (Command.createDefaultAsset k sourceType options).flow).1 = .error e
  unchanged : ∃ drawn, o.handle (.command (.createDefaultAsset k sourceType options)) =
    { o with world := { o.world with ids := { o.world.ids with assetsDrawn := drawn } } }
  exists_already : ∀ v a g, o.world.store.versions.get? k = some v →
    o.world.planSource k sourceType options = .ok (a, g) → e = .alreadyExists "asset"
      (if o.world.store.assets.contains a.id then a.id.text else Location.features k)

/-- Every version has the default asset that it was created with, and gets no other one. -/
structure OwnsDefaults (o : Orchestrator) (es : List Event) : Prop where
  owns : ∀ k v, (o.after es).world.store.versions.get? k = some v → ∃ x a, o.OwnsDefault es k x a
  refuses : ∀ k sourceType options, ∃ e, (o.after es).RefusesDefault k sourceType options e

/-- The default asset of a version is the table that its source was planned as. -/
theorem ownsDefault_of_default (hs : o.Sound) {es : List Event}
    (hd : (o.after es).world.ids.Distinct) (hnone : o.world.store.assets.get? x = none) {a : Asset}
    (ha : (o.after es).world.store.assets.get? x = some a) (hdefault : a.isDefault = true) :
    o.OwnsDefault es a.key x a := by
  have hlead := (hs.after hd).world.defaultsLead
  refine ⟨ha, fun y b hb hkey hbdefault => hlead.unique y b x a hb ha hbdefault hdefault hkey, ?_⟩
  -- the asset has been there since some event
  obtain ⟨es₁, e, es₂, rfl, hno, hsince⟩ := exists_onset
    (p := fun o => ∃ b, o.world.store.assets.get? x = some b) (by simp [hnone]) ⟨a, ha⟩
  rw [after_append, after_cons] at hd ha
  have hd₁ := (after_extends _ es₂).distinct hd
  have hs₁ := hs.after ((handle_extends _ e).distinct hd₁)
  have hs₂ := hs₁.handle e hd₁
  obtain ⟨b, hb⟩ := hsince [] List.nil_prefix
  have hbecomes := becomes_after hs₂ hd hb ha
  have hbdefault : b.isDefault = true := by
    rw [hbecomes.same] at hdefault
    exact hdefault
  obtain ⟨q, rfl, hgrants, hversion, options, hoptions, htable⟩ :=
    exists_createVersion_of_default hs₁ hd₁ (Option.eq_none_iff_forall_ne_some.mpr
      fun c hc => hno ⟨c, hc⟩) hb hbdefault
  have hkey : q.key = a.key := (htable.becomes hbecomes).key.symm
  rw [hkey] at hversion htable
  refine ⟨es₁, q, es₂, options, rfl, hkey, hgrants, hversion, fun es₃ hprefix => ?_, hoptions,
    htable.becomes hbecomes⟩
  -- the version is there as long as its asset is
  obtain ⟨es₄, rfl⟩ := hprefix
  obtain ⟨c, hc⟩ := hsince es₃ (List.prefix_append _ _)
  rw [after_append] at hd
  have hd₃ := (after_extends _ es₄).distinct hd
  have hckey : c.key = a.key := by
    rw [(becomes_after hs₂ hd₃ hb hc).same]
    exact htable.key
  rw [← hckey]
  exact (hs₂.after hd₃).world.wellFormed.version_of_asset x c hc

/-- A version that has its default asset gets no other one. -/
theorem exists_refusesDefault (hs : o.Sound) (k : VersionKey) (sourceType : String)
    (options : Json) (howns : ∀ v, o.world.store.versions.get? k = some v →
      ∃ x a, o.world.store.assets.get? x = some a ∧ a.uri = Location.features k) :
    ∃ e, o.RefusesDefault k sourceType options e := by
  have hlead := hs.world.defaultsLead
  obtain ⟨e, drawn, hr, hexists⟩ := Command.createDefaultAsset_refused k sourceType options
    fun a g s (hplan : o.world.planSource k sourceType options = .ok (a, g)) hcreate => by
      obtain ⟨_, _, hdefault, hnew, _⟩ := Request.planSource_eq_ok hplan
      have hop : o.world.store.Performs (.createAsset a) s := .createAsset hnew hcreate
      rw [hop.isDefault_of_createAsset hlead] at hdefault
      cases hdefault
  have hrequest : o.request (Command.createDefaultAsset k sourceType options).flow =
      (.error e, { o with world :=
        { o.world with ids := { o.world.ids with assetsDrawn := drawn } } }) := by
    unfold request
    rw [hr]
  refine ⟨e, congrArg Prod.fst hrequest, ⟨drawn, ?_⟩, fun v a g hv hplan => ?_⟩
  · show o.obey _ = _
    unfold obey
    rw [hrequest]
  · obtain ⟨x, b, hb, hplace⟩ := howns v hv
    obtain ⟨_, _, htable⟩ := Request.planSource_isTableOf hplan
    have htaken : o.world.store.places.get? a.uri = some x := by
      rw [hs.world.wellFormed.place_iff, htable.uri]
      exact ⟨b, hb, hplace⟩
    have hversion : o.world.store.versions.contains a.key = true := by
      rw [htable.key]
      exact Directory.contains_iff.mpr ⟨v, hv⟩
    have herror := hexists v a g hv hplan
    rw [Store.createAsset_of_place hversion htaken, htable.uri] at herror
    exact (Except.error.inj herror).symm

/-- In every run each version has the default asset that it was created with. -/
theorem initial_ownsDefaults {settings : Settings} {now : Timestamp} {ids : IdSupply}
    {es : List Event} (hd : ((initial settings now ids).after es).world.ids.Distinct) :
    (initial settings now ids).OwnsDefaults es := by
  have hs := initial_sound settings now ids
  have howns : ∀ k v, ((initial settings now ids).after es).world.store.versions.get? k = some v →
      ∃ x a, (initial settings now ids).OwnsDefault es k x a := by
    intro k v hv
    obtain ⟨x, a, ha, rfl, hdefault⟩ := (hs.after hd).world.defaultsLead.exists_default k v hv
    exact ⟨x, a, ownsDefault_of_default hs hd rfl ha hdefault⟩
  refine ⟨howns, fun k sourceType options => ?_⟩
  refine exists_refusesDefault (hs.after hd) k sourceType options fun v hv => ?_
  obtain ⟨x, a, ha⟩ := howns k v hv
  obtain ⟨_, _, _, _, _, _, _, _, _, _, htable⟩ := ha.created
  exact ⟨x, a, ha.asset, htable.uri⟩

/-! ## A run -/

namespace Sample

/-- Another source for the version that was created twice. -/
def createDefault : Command :=
  .createDefaultAsset ⟨"d", "v1"⟩ "table"
    (.object [("source_uri", .array [.string "s3://b/b.csv"])])

end Sample

set_option maxRecDepth 100000 in
theorem tableReplaced_ownsDefaults : ∃ es, es = Sample.tableReplaced ∧
    (Sample.start.after es).world.ids.Distinct ∧
      ((Sample.start.after es).world.store.versions.keys,
        (Sample.start.after es).world.store.assets.values.map fun a => (a.isDefault, a.uri)) =
        ([⟨"d", "v2"⟩, ⟨"d", "v1"⟩],
          [(true, Location.features ⟨"d", "v2"⟩), (true, Location.features ⟨"d", "v1"⟩)]) ∧
      (match ((Sample.start.after es).request Sample.createDefault.flow).1 with
        | .ok _ => ""
        | .error e => e.message) = "asset already exists: /d/v1/features" ∧
      Sample.start.OwnsDefaults es := by
  refine ⟨_, rfl, ?_⟩
  have hd : (Sample.start.after Sample.tableReplaced).world.ids.Distinct := by decide +kernel
  refine ⟨hd, ?_, ?_, initial_ownsDefaults hd⟩
  · decide +kernel
  · decide +kernel

end Orchestrator

end GeoAssets
