import GeoAssets.Proofs.Plan.Files
import GeoAssets.Proofs.Run.AssetIsolation

/-!
# Where the pipelines of derived assets write

The pipeline of a file writes to the place of the file, which is no other asset's place. The
pipeline of rendered tiles writes the rows from which the tiles are rendered, and these have one
place in each version, whatever the name of the tiles. So two assets of one version are written to
the same place exactly if both are rendered tiles.
-/

namespace GeoAssets

/-! ## Jobs -/

/-- Where a job is told to write, by the arguments of its script. -/
def Job.targets (j : Job) : List String :=
  flagValues "-T" j.command.tail

/-- Where the jobs of a graph are told to write. -/
def JobGraph.targets (g : JobGraph) : List String :=
  g.jobs.flatMap (·.targets)

/-- Where the pipeline of a derived asset writes. -/
def Asset.exportTarget? (settings : Settings) (a : Asset) : Option String :=
  match a.type with
  | .staticVectorTileCache => some (Location.vectorFile settings.dataLakeBucket a.key "ndjson")
  | .shapefile | .geopackage => some a.uri
  | _ => none

theorem Asset.exportTarget?_becomes {settings : Settings} {a b : Asset} (h : a.Becomes b) :
    b.exportTarget? settings = a.exportTarget? settings := by
  rw [h.same]
  rfl

namespace Plan

variable {b : Brief}

theorem targets_staticTileJobs {t : StaticTiles} {jobs : List Job}
    (h : staticTileJobs b t = .ok jobs) : jobs.flatMap (·.targets) = [tileInput b] := by
  obtain ⟨fields, _, h⟩ := bind_eq_ok_iff.mp h
  cases h
  rfl

theorem targets_fileJobs {f : VectorFile} {jobs : List Job} (h : fileJobs b f = .ok jobs) :
    jobs.flatMap (·.targets) = [b.asset.uri] := by
  simp only [fileJobs, bind_eq_ok_iff] at h
  obtain ⟨⟨driver, extension, zipped⟩, _, fields, _, h⟩ := h
  cases h
  rfl

/-- The jobs of an accepted plan are those of its options. -/
theorem jobs_of_build {g : JobGraph} (h : build b = .ok g) :
    ∃ options, b.asset.options = some options ∧ jobs b options = .ok g.jobs := by
  simp only [build, bind_eq_ok_iff, orElseFail_eq_ok_iff] at h
  obtain ⟨options, hoptions, _, _, _, _, js, hjs, g', hg, _, _, h⟩ := h
  cases h
  rw [← JobGraph.jobs_of_ofJobs hg] at hjs
  exact ⟨options, hoptions, hjs⟩

end Plan

/-- The pipeline of a derived asset writes to one place at most. -/
theorem Request.targets_of_planDerived {settings : Settings} {now : Timestamp} {id : AssetId}
    {key : VersionKey} {type : AssetType} {json : Json} {siblings : List Asset} {a : Asset}
    {g : JobGraph} (h : planDerived settings now id key type json siblings = .ok (a, g)) :
    g.targets = (a.exportTarget? settings).toList := by
  have hlies := (planDerived_isPlanned h).lies
  have hdefault : a.isDefault = false := by
    simp only [planDerived, bind_eq_ok_iff] at h
    obtain ⟨_, _, _, _, _, _, h⟩ := h
    cases h
    rfl
  obtain ⟨options, hoptions, hjobs⟩ : ∃ options, a.options = some options ∧
      Plan.jobs ⟨settings, a, defaultFields siblings⟩ options = .ok g.jobs := by
    simp only [planDerived, bind_eq_ok_iff] at h
    obtain ⟨_, _, _, _, g', hg, h⟩ := h
    cases h
    exact Plan.jobs_of_build hg
  unfold JobGraph.targets Asset.exportTarget?
  cases hlies with
  | table _ hno =>
    rw [hdefault] at hno
    cases hno
  | dynamicTiles htype _ ho =>
    cases hoptions.symm.trans ho
    rw [htype, ← Except.ok.inj hjobs]
    rfl
  | staticTiles htype _ ho =>
    cases hoptions.symm.trans ho
    rw [htype, Plan.targets_staticTileJobs hjobs]
    rfl
  | file htype _ ho =>
    cases hoptions.symm.trans ho
    rw [Plan.targets_fileJobs hjobs]
    rcases AssetType.eq_of_fileExtension? htype with ⟨h, _⟩ | ⟨h, _⟩ <;> rw [h] <;> rfl

/-! ## Common targets -/

theorem Location.vectorFile_inj {bucket : String} {key : VersionKey} {extension extension' : String}
    (h : vectorFile bucket key extension = vectorFile bucket key extension') :
    extension = extension' := by
  unfold vectorFile at h
  exact (String.append_right_inj _).mp h

/-- The pipeline of rendered tiles writes their rows, that of a file writes the file. -/
theorem Asset.exportTarget?_eq_some_iff {settings : Settings} {a : Asset} {target : String} :
    a.exportTarget? settings = some target ↔
      a.type = .staticVectorTileCache ∧
          Location.vectorFile settings.dataLakeBucket a.key "ndjson" = target ∨
        (∃ extension, a.type.fileExtension? = some extension) ∧ a.uri = target := by
  unfold exportTarget?
  cases a.type <;> simp [AssetType.fileExtension?]

namespace Asset.IsPlanned

variable {settings : Settings} {a b : Asset}

/-- A file is not kept where the rows of tiles are. -/
theorem uri_ne_rows (ha : a.IsPlanned settings) {extension : String}
    (type : a.type.fileExtension? = some extension) :
    a.uri ≠ Location.vectorFile settings.dataLakeBucket a.key "ndjson" := by
  intro h
  cases ha.lies with
  | @file _ extension' htype _ _ uri =>
    rw [uri] at h
    have hrows := Location.vectorFile_inj h
    rcases AssetType.eq_of_fileExtension? htype with ⟨_, rfl⟩ | ⟨_, rfl⟩
    · exact absurd hrows (by decide)
    · exact absurd hrows (by decide)
  | table htype =>
    rcases AssetType.eq_of_isDatabase htype with h | h <;> rw [h] at type <;> cases type
  | dynamicTiles htype | staticTiles htype =>
    rw [htype] at type
    cases type

/-- Two assets of one version at different places have a common target exactly if both are rendered
tiles. -/
theorem exists_exportTarget_iff (ha : a.IsPlanned settings) (hb : b.IsPlanned settings)
    (hkey : a.key = b.key) (hne : a.uri ≠ b.uri) :
    (∃ target, a.exportTarget? settings = some target ∧ b.exportTarget? settings = some target) ↔
      a.type = .staticVectorTileCache ∧ b.type = .staticVectorTileCache := by
  simp only [exportTarget?_eq_some_iff]
  constructor
  · rintro ⟨target, ⟨htiles, rfl⟩ | ⟨⟨_, hfile⟩, rfl⟩, ⟨htiles', h⟩ | ⟨⟨_, hfile'⟩, h⟩⟩
    · exact ⟨htiles, htiles'⟩
    · rw [hkey] at h
      exact absurd h (hb.uri_ne_rows hfile')
    · rw [← hkey] at h
      exact absurd h.symm (ha.uri_ne_rows hfile)
    · exact absurd h.symm hne
  · rintro ⟨htiles, htiles'⟩
    exact ⟨_, Or.inl ⟨htiles, rfl⟩, Or.inl ⟨htiles', by rw [hkey]⟩⟩

end Asset.IsPlanned

/-! ## Runs -/

namespace Orchestrator

/-- A derived asset was created in a run, and the pipeline of the graph that was planned for it was
begun. -/
def Derives (o : Orchestrator) (es : List Event) (x : AssetId) (g : JobGraph) : Prop :=
  ∃ es₁ key type json es₂ a, es = es₁ ++ .command (.createAsset key type json) :: es₂ ∧ a.id = x ∧
    (o.after es₁).world.planDerived key type json = .ok (a, g) ∧
    ((o.after es₁).request (Command.createAsset key type json).flow).1 =
      .ok (some (.pipeline a g))

/-- The pipelines of derived assets of one version have no common target. -/
def KeepsTargetsApart (o : Orchestrator) (es : List Event) : Prop :=
  ∀ x a g y b g', (o.after es).world.store.assets.get? x = some a → o.Derives es x g →
    (o.after es).world.store.assets.get? y = some b → o.Derives es y g' →
      x ≠ y → a.key = b.key → ∀ target ∈ g.targets, target ∉ g'.targets

/-- The pipeline of a derived asset has one target at most. Two in one version have a common target
exactly if both assets are rendered tiles. -/
structure KeepsTargetsApartUnlessTiles (o : Orchestrator) (settings : Settings)
    (es : List Event) : Prop where
  targets : ∀ x a g, (o.after es).world.store.assets.get? x = some a → o.Derives es x g →
    g.targets = (a.exportTarget? settings).toList
  shares_iff : ∀ x a g y b g', (o.after es).world.store.assets.get? x = some a →
    o.Derives es x g → (o.after es).world.store.assets.get? y = some b → o.Derives es y g' →
      x ≠ y → a.key = b.key → ((∃ target ∈ g.targets, target ∈ g'.targets) ↔
        a.type = .staticVectorTileCache ∧ b.type = .staticVectorTileCache)

/-- The jobs that were begun for an asset have its targets, however it has changed since. -/
theorem Derives.targets {o : Orchestrator} (hs : o.Sound) {es : List Event}
    (hd : (o.after es).world.ids.Distinct) {x : AssetId} {a : Asset} {g : JobGraph}
    (h : o.Derives es x g) (ha : (o.after es).world.store.assets.get? x = some a) :
    g.targets = (a.exportTarget? o.world.settings).toList := by
  obtain ⟨es₁, key, type, json, es₂, b, rfl, rfl, hplan, hanswer⟩ := h
  rw [after_append, after_cons] at hd ha
  have hd' := (after_extends _ es₂).distinct hd
  have hs₁ := hs.after ((handle_extends _ _).distinct hd')
  have hb := hs₁.get?_of_pipeline hanswer hd'
  have hbecomes : b.Becomes a := becomes_after (hs₁.handle _ hd') hd hb ha
  rw [Asset.exportTarget?_becomes hbecomes]
  unfold World.planDerived at hplan
  rw [after_settings] at hplan
  exact Request.targets_of_planDerived hplan

/-- In every run the pipelines of derived assets are kept apart unless they render tiles. -/
theorem initial_keepsTargetsApartUnlessTiles {settings : Settings} {now : Timestamp}
    {ids : IdSupply} {es : List Event}
    (hd : ((initial settings now ids).after es).world.ids.Distinct) :
    (initial settings now ids).KeepsTargetsApartUnlessTiles settings es := by
  have hs := initial_sound settings now ids
  have hw := (hs.after hd).world.wellFormed
  have hplanned := hasPlanned_after hd
  unfold HasPlanned at hplanned
  rw [after_settings] at hplanned
  have htargets : ∀ x a g,
      ((initial settings now ids).after es).world.store.assets.get? x = some a →
      (initial settings now ids).Derives es x g →
        g.targets = (a.exportTarget? settings).toList := fun x a g ha h => h.targets hs hd ha
  refine ⟨htargets, fun x a g y b g' ha hg hb hg' hne hkey => ?_⟩
  rw [htargets x a g ha hg, htargets y b g' hb hg']
  simp only [Option.mem_toList]
  exact (hplanned x a ha).exists_exportTarget_iff (hplanned y b hb) hkey (hw.uri_ne ha hb hne)

/-! ## A state -/

namespace Sample

set_option maxRecDepth 100000 in
theorem derives_rendered : ∃ g, start.Derives bothRendered (ids.asset 1) g := by
  have hplanned : Prod.fst <$> (start.after fieldSaved).world.planDerived ⟨"d", "v1"⟩
      .staticVectorTileCache (.object [("implementation", .string "a")]) = .ok (tiles 1 "a") := by
    decide +kernel
  have hfiled : ((start.after fieldSaved).world.store.createAsset (tiles 1 "a")).isOk = true := by
    decide +kernel
  obtain ⟨g, hplan, hanswer, _⟩ := exists_derived hplanned hfiled
  exact ⟨g, fieldSaved, _, _, _, [.command (render "a/b")], _, List.append_assoc _ _ _, rfl, hplan,
    hanswer⟩

theorem derives_nested : ∃ g, start.Derives bothRendered (ids.asset 2) g := by
  obtain ⟨g, hplan, hanswer, _⟩ := render_nested
  exact ⟨g, rendered, _, _, _, [], _, rfl, rfl, hplan, hanswer⟩

end Sample

set_option maxRecDepth 100000 in
theorem bothRendered_keepsTargetsApartUnlessTiles :
    (Sample.start.after Sample.bothRendered).world.ids.Distinct ∧
      (∃ g g', Sample.start.Derives Sample.bothRendered (Sample.ids.asset 1) g ∧
        Sample.start.Derives Sample.bothRendered (Sample.ids.asset 2) g') ∧
      Sample.start.KeepsTargetsApartUnlessTiles .standard Sample.bothRendered := by
  obtain ⟨g, hg⟩ := Sample.derives_rendered
  obtain ⟨g', hg'⟩ := Sample.derives_nested
  exact ⟨Sample.bothRendered_distinct, ⟨g, g', hg, hg'⟩,
    initial_keepsTargetsApartUnlessTiles Sample.bothRendered_distinct⟩

set_option maxRecDepth 100000 in
/-- Tiles that are rendered under two names are rendered from the same rows. -/
theorem bothRendered_not_keepsTargetsApart :
    ¬ Sample.start.KeepsTargetsApart Sample.bothRendered := by
  intro h
  have hs : Sample.start.Sound := initial_sound _ _ _
  obtain ⟨g, hg⟩ := Sample.derives_rendered
  obtain ⟨g', hg'⟩ := Sample.derives_nested
  have ha := Sample.get?_bothRendered (1, "a") (by simp)
  have hb := Sample.get?_bothRendered (2, "a/b") (by simp)
  have htargets : g.targets = ["s3://strata-data-lake/d/v1/vector/epsg-4326/d_v1.ndjson"] :=
    (hg.targets hs Sample.bothRendered_distinct ha).trans (by decide)
  have htargets' : g'.targets = ["s3://strata-data-lake/d/v1/vector/epsg-4326/d_v1.ndjson"] :=
    (hg'.targets hs Sample.bothRendered_distinct hb).trans (by decide)
  refine h _ _ g _ _ g' ha hg hb hg' (by decide) rfl
    "s3://strata-data-lake/d/v1/vector/epsg-4326/d_v1.ndjson" ?_ ?_
  · rw [htargets]
    exact List.mem_cons_self
  · rw [htargets']
    exact List.mem_cons_self

end Orchestrator

end GeoAssets
