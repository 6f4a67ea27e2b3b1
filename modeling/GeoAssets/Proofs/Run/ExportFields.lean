import GeoAssets.Proofs.Run.ExportTargets
import GeoAssets.Proofs.Run.Fields
import GeoAssets.Proofs.Run.Inspection

/-!
# Which fields are exported

An export has the fields of the default asset that are no system columns, and if fields are asked
for, those among them (`Plan.exportedFields_eq`). The fields of the default asset are the columns
that were read when it was settled (`Orchestrator.exists_readsColumns`). So in every state the
fields of an accepted export are columns of the table, in their order
(`Orchestrator.ExportsColumns`).
-/

namespace GeoAssets

/-! ## Columns that are exported -/

/-- The names of the columns that are exported of a table, given the names that are asked for. -/
structure Plan.Exports (columns : List Column) (requested : Option (List String))
    (names : List String) : Prop where
  ne_nil : names ≠ []
  /-- The columns keep their order. -/
  sublist : names.Sublist (columns.map (·.name))
  not_system : ∀ name ∈ names, name ∉ Column.systemNames
  /-- Nothing but system columns is left out. -/
  all : requested = none →
    names = (columns.map (·.name)).filter fun name => name ∉ Column.systemNames
  /-- Nothing but system columns is left out of what is asked for. -/
  requested : ∀ wanted, requested = some wanted →
    names = (columns.map (·.name)).filter fun name => name ∉ Column.systemNames ∧ name ∈ wanted

/-- The fields that the options of an export ask for. -/
def CreationOptions.requestedFields? : CreationOptions → Option (List String)
  | .staticTiles t => t.fields
  | .vectorFile f => f.fields
  | _ => none

/-- Decides whether an asset of a type is exported from the default asset of its version. -/
def AssetType.isExport : AssetType → Bool
  | .staticVectorTileCache | .shapefile | .geopackage => true
  | _ => false

namespace Plan

variable {b : Brief} {columns : List Column} {requested : Option (List String)}
  {names : List String}

/-- Decides whether a column is exported. -/
def isExported (requested : Option (List String)) (name : String) : Bool :=
  !Column.systemNames.contains name && requested.all (·.contains name)

theorem exportedFields_eq (hfields : b.fields = columns.map Field.ofColumn)
    (h : exportedFields b requested = .ok names) :
    names ≠ [] ∧ names = (columns.map (·.name)).filter (isExported requested) := by
  have hnames : ((b.fields.filter fun f => f.isFeatureInfo && isRequested requested f).map
      (·.name)) = (columns.map (·.name)).filter (isExported requested) := by
    rw [hfields, List.filter_map, List.map_map, List.filter_map]
    cases requested <;> rfl
  unfold exportedFields at h
  dsimp only at h
  rw [hnames] at h
  split at h
  · cases h
  · next hsome =>
    cases h
    exact ⟨fun hnil => hsome (List.isEmpty_iff.mpr hnil), rfl⟩

theorem exports_of_exportedFields (hfields : b.fields = columns.map Field.ofColumn)
    (h : exportedFields b requested = .ok names) : Exports columns requested names := by
  obtain ⟨hne, rfl⟩ := exportedFields_eq hfields h
  constructor
  case ne_nil => exact hne
  case sublist => exact List.filter_sublist
  case not_system =>
    intro name hname
    have hexported := (List.mem_filter.mp hname).2
    rw [isExported, Bool.and_eq_true, Bool.not_eq_true', List.contains_eq_mem,
      decide_eq_false_iff_not] at hexported
    exact hexported.1
  case all =>
    rintro rfl
    refine List.filter_congr fun name _ => ?_
    simp [isExported]
  case requested =>
    rintro wanted rfl
    refine List.filter_congr fun name _ => ?_
    simp [isExported]

/-- Without fields of the default asset nothing is exported. -/
theorem fields_ne_nil (h : exportedFields b requested = .ok names) : b.fields ≠ [] := by
  intro hnil
  rw [exportedFields, hnil] at h
  cases h

end Plan

/-! ## Jobs -/

/-- The columns that a job is told to export, by the arguments of its script. -/
def Job.exports (j : Job) : List String :=
  flagValues "-C" j.command.tail

/-- The columns that the jobs of a graph are told to export. -/
def JobGraph.exports (g : JobGraph) : List String :=
  g.jobs.flatMap (·.exports)

namespace Plan

variable {b : Brief}

theorem exports_staticTileJobs {t : StaticTiles} {jobs : List Job}
    (h : staticTileJobs b t = .ok jobs) : ∃ names, exportedFields b t.fields = .ok names ∧
      jobs.flatMap (·.exports) = [",".intercalate names] := by
  obtain ⟨names, hnames, h⟩ := bind_eq_ok_iff.mp h
  cases h
  exact ⟨names, hnames, rfl⟩

theorem exports_fileJobs {f : VectorFile} {jobs : List Job} (h : fileJobs b f = .ok jobs) :
    ∃ names, exportedFields b f.fields = .ok names ∧
      jobs.flatMap (·.exports) = [",".intercalate names] := by
  simp only [fileJobs, bind_eq_ok_iff] at h
  obtain ⟨⟨driver, extension, zipped⟩, _, names, hnames, h⟩ := h
  cases h
  exact ⟨names, hnames, rfl⟩

end Plan

namespace Request

/-- One list of columns is exported, those of the default asset that are asked for. -/
theorem exports_of_planDerived {settings : Settings} {now : Timestamp} {id : AssetId}
    {key : VersionKey} {type : AssetType} {json : Json} {siblings : List Asset} {a : Asset}
    {g : JobGraph} (h : planDerived settings now id key type json siblings = .ok (a, g))
    (htype : type.isExport = true) :
    ∃ options names, CreationOptions.forAssetType type json = .ok options ∧
      Plan.exportedFields ⟨settings, a, defaultFields siblings⟩ options.requestedFields? =
        .ok names ∧ g.exports = [",".intercalate names] := by
  have hlies := (planDerived_isPlanned h).lies
  simp only [planDerived, bind_eq_ok_iff] at h
  obtain ⟨options, hread, uri, _, g', hg, h⟩ := h
  cases h
  obtain ⟨options', hoptions, hjobs⟩ := Plan.jobs_of_build hg
  cases hoptions
  refine ⟨options, ?_⟩
  cases hlies with
  | table _ hdefault => cases hdefault
  | dynamicTiles htiles =>
    change type = _ at htiles
    rw [htiles] at htype
    cases htype
  | staticTiles _ _ ho =>
    cases ho
    obtain ⟨names, hnames, hexports⟩ := Plan.exports_staticTileJobs hjobs
    exact ⟨names, hread, hnames, hexports⟩
  | file _ _ ho =>
    cases ho
    obtain ⟨names, hnames, hexports⟩ := Plan.exports_fileJobs hjobs
    exact ⟨names, hread, hnames, hexports⟩

/-- Fields are those of a default asset. -/
theorem exists_of_defaultFields {assets : List Asset} (h : defaultFields assets ≠ []) :
    ∃ t ∈ assets, t.isDefault = true ∧ defaultFields assets = t.metadata.fields := by
  unfold defaultFields at h ⊢
  cases hfound : assets.find? (·.isDefault) with
  | none =>
    rw [hfound] at h
    exact absurd rfl h
  | some t => exact ⟨t, List.mem_of_find?_eq_some hfound, List.find?_some hfound, rfl⟩

end Request

/-! ## Runs -/

namespace Orchestrator

variable {o : Orchestrator} {es : List Event}

/-- A request for a derived asset is granted by the pipeline that was planned for it. -/
theorem pipeline_of_answer {key : VersionKey} {type : AssetType} {json : Json}
    {answer : Option Work}
    (h : (o.request (Command.createAsset key type json).flow).1 = .ok answer) :
    ∃ a g, answer = some (.pipeline a g) ∧ o.world.planDerived key type json = .ok (a, g) := by
  obtain ⟨a, g, hplan, hs⟩ :=
    changes_of_grants (c := .createAsset key type json) (grants_iff.mpr ⟨answer, h⟩)
  have hanswer := congrArg Prod.fst (Command.createAsset_run_of_planDerived hplan hs)
  exact ⟨a, g, Except.ok.inj (h.symm.trans hanswer), hplan⟩

/-- Where an export of a version is accepted after a run, its columns are some of those that were
read for the default asset of the version. -/
def ExportsColumns (o : Orchestrator) (es : List Event) : Prop :=
  ∀ key type json answer, type.isExport = true →
    ((o.after es).request (Command.createAsset key type json).flow).1 = .ok answer →
    ∃ a g t columns options names, answer = some (.pipeline a g) ∧
      (o.after es).world.store.IsDefaultOf key t ∧ o.ReadsColumns es t.id key columns ∧
      CreationOptions.forAssetType type json = .ok options ∧
      Plan.Exports columns options.requestedFields? names ∧ g.exports = [",".intercalate names]

/-- In every state of every run exports have columns of the table. -/
theorem initial_exportsColumns {settings : Settings} {now : Timestamp} {ids : IdSupply}
    {es : List Event} (hd : ((initial settings now ids).after es).world.ids.Distinct) :
    (initial settings now ids).ExportsColumns es := by
  intro key type json answer htype hanswer
  have hs := (initial_sound settings now ids).after hd
  obtain ⟨a, g, rfl, hplan⟩ := pipeline_of_answer hanswer
  obtain ⟨options, names, hread, hnames, hexports⟩ := Request.exports_of_planDerived hplan htype
  obtain ⟨t, hmem, hdefault, hfields⟩ :=
    Request.exists_of_defaultFields (Plan.fields_ne_nil hnames)
  obtain ⟨ht, rfl⟩ := hs.world.wellFormed.mem_assetsOf_iff.mp hmem
  have hne : t.metadata.fields ≠ [] := hfields ▸ Plan.fields_ne_nil hnames
  obtain ⟨columns, hcolumns, hread'⟩ := exists_readsColumns hd ht hdefault hne
  exact ⟨a, g, t, columns, options, names, rfl, isDefaultOf hs ht hdefault, hcolumns, hread,
    Plan.exports_of_exportedFields (hfields.trans hread') hnames, hexports⟩

/-! ## A state -/

namespace Sample

/-- The table has columns with geometries, names, kinds and times. -/
def columnsLoaded : Event :=
  .surround {
    now := ⟨0, 0⟩
    services := { database := { tables := ⟨[(("d", "v1"), [⟨"geom", "geometry"⟩, ⟨"name", "text"⟩,
      ⟨"kind", "text"⟩, ⟨"created_on", "timestamp"⟩])]⟩ } }
    refused := []
    histories := {}
    rejectedTaskWrites := 0 }

/-- A table of roads was saved. -/
def roadsSaved : List Event :=
  datasetFiled ++ columnsLoaded :: .command createTable :: tableSaved

/-- The fields that a caller asks for. -/
def someFields : List (String × Json) :=
  [("field_attributes", .array [.string "kind", .string "geom", .string "name"])]

/-- The file that is exported with the fields that a caller asks for. -/
def roadsFile : Asset :=
  .create (ids.asset 1) ⟨"d", "v1"⟩ .shapefile
    (Location.vectorFile Settings.standard.dataLakeBucket ⟨"d", "v1"⟩ "shp.zip")
    (.vectorFile { fields := some ["kind", "geom", "name"] }) ⟨0, 0⟩

end Sample

set_option maxRecDepth 100000 in
theorem roadsSaved_exportsColumns : ∃ es, es = Sample.roadsSaved ∧
    (Sample.start.after es).world.ids.Distinct ∧
      Sample.assets (Sample.start.after es) =
        [(.databaseTable, .saved, ["geom", "name", "kind", "created_on"])] ∧
      (∃ answer, ((Sample.start.after es).request
        (Sample.derive "v1" .shapefile Sample.someFields).flow).1 = .ok answer) ∧
      Sample.start.ExportsColumns es := by
  have hd : (Sample.start.after Sample.roadsSaved).world.ids.Distinct := by decide +kernel
  have hplanned : Prod.fst <$> (Sample.start.after Sample.roadsSaved).world.planDerived ⟨"d", "v1"⟩
      .shapefile (.object Sample.someFields) = .ok Sample.roadsFile := by decide +kernel
  have hfiled : ((Sample.start.after Sample.roadsSaved).world.store.createAsset
      Sample.roadsFile).isOk = true := by decide +kernel
  obtain ⟨g, _, hanswer, _⟩ := exists_derived hplanned hfiled
  refine ⟨_, rfl, hd, ?_, ⟨_, hanswer⟩, initial_exportsColumns hd⟩
  decide +kernel

end Orchestrator

end GeoAssets
