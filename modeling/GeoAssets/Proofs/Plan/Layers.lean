import GeoAssets.Proofs.Plan.FirstFile

/-!
# Layers without names

A valid vector source has layers. Those that it gives itself have names; the one that is named after
its first file has a name unless the location of the file ends in a slash, or a dot follows its last
slash (`FileName.IsNameless`). Then the source passes all the same, and the jobs of its plan are
told to load a layer without a name (`Plan.NamesLayers`).
-/

namespace GeoAssets

/-! ## Locations that name no layer -/

namespace FileName

variable {location : String} {folder name : List Char}

/-- A location consists of a folder, which ends in a slash unless it is empty, and of the name of a
file. -/
structure Splits (location : String) (folder name : List Char) : Prop where
  eq_append : location.toList = folder ++ name
  folder : ∀ c ∈ folder.getLast?, c = '/'
  name : '/' ∉ name

/-- The file of a location has no name, or one that begins with a dot. -/
def IsNameless (location : String) : Prop :=
  ∃ folder name, Splits location folder name ∧ ∀ c ∈ name.head?, c = '.'

/-- What follows the last slash is the name of the file. -/
theorem Splits.ofLocation_eq (h : Splits location folder name) :
    ofLocation location = String.ofList name := by
  unfold ofLocation Text.lastPiece
  rw [h.eq_append]
  rcases List.eq_nil_or_concat folder with rfl | ⟨start, c, rfl⟩
  · rw [List.nil_append, Text.pieces_of_not_mem h.name]
    rfl
  · obtain rfl : c = '/' := h.folder c (by simp)
    rw [List.concat_append, Text.pieces_append_cons, Text.pieces_of_not_mem h.name,
      List.getLastD_concat]

/-- Every location has a folder and a name. -/
theorem exists_splits (location : String) : ∃ folder name, Splits location folder name := by
  by_cases hslash : '/' ∈ location.toList
  · -- the last slash is the first one from behind
    obtain ⟨after, before, heq, hafter⟩ :=
      List.eq_append_cons_of_mem (List.mem_reverse.mpr hslash)
    refine ⟨before.reverse ++ ['/'], after.reverse, ?_, by simp, by simpa using hafter⟩
    rw [← List.reverse_reverse location.toList, heq]
    simp
  · exact ⟨[], location.toList, rfl, nofun, hslash⟩

/-- A file has no layer if and only if its name is empty or begins with a dot. -/
theorem layer_eq_empty_iff : layer location = "" ↔ IsNameless location := by
  have hlayer : ∀ {folder name}, Splits location folder name →
      (layer location = "" ↔ ∀ c ∈ name.head?, c = '.') := by
    intro folder name h
    rw [layer, h.ofLocation_eq, Text.firstPiece, String.toList_ofList]
    cases name <;> simp
  obtain ⟨folder, name, h⟩ := exists_splits location
  refine ⟨fun he => ⟨folder, name, h, (hlayer h).mp he⟩, ?_⟩
  rintro ⟨folder, name, h, hname⟩
  exact (hlayer h).mpr hname

end FileName

/-! ## Valid sources -/

namespace VectorSource

variable {s : VectorSource}

/-- The layers that a valid source gives have names. -/
theorem empty_notMem_of_layers (h : s.validate = .ok ()) {layers : List String}
    (hlayers : s.layers = some layers) : "" ∉ layers := by
  obtain ⟨_, _, hrest⟩ := bind_eq_ok_iff.mp h
  obtain ⟨_, hnames, _⟩ := bind_eq_ok_iff.mp hrest
  rw [require_eq_ok_iff, hlayers, Option.all_some, Bool.and_eq_true] at hnames
  simpa using hnames.2

/-- If a valid source gives no layers, there is one that is named after the first file. -/
theorem resolvedLayers_of_none (h : s.validate = .ok ()) (hlayers : s.layers = none) :
    s.resolvedLayers = [FileName.layer (Plan.Vector.firstFile s)] := by
  obtain ⟨file, files, hfiles⟩ := List.exists_cons_of_ne_nil (files_ne_nil h)
  unfold resolvedLayers Plan.Vector.firstFile
  rw [hlayers, hfiles]
  rfl

/-- A layer of a valid source has no name if and only if it is named after a file without a name. -/
theorem empty_mem_resolvedLayers_iff (h : s.validate = .ok ()) :
    "" ∈ s.resolvedLayers ↔
      s.layers = none ∧ FileName.IsNameless (Plan.Vector.firstFile s) := by
  rw [← FileName.layer_eq_empty_iff]
  cases hlayers : s.layers with
  | some layers =>
    have hnone := empty_notMem_of_layers h hlayers
    simpa [resolvedLayers, hlayers] using hnone
  | none =>
    rw [resolvedLayers_of_none h hlayers, List.mem_singleton, eq_comm]
    exact (and_iff_right rfl).symm

end VectorSource

/-! ## Plans -/

namespace Plan

variable {b : Brief} {s : VectorSource} {g : JobGraph}

namespace Vector

/-- The arguments for the columns of the table name no layer. -/
theorem layers_schemaArgs (s : VectorSource) : flagValues "-l" (schemaArgs s) = [] := by
  unfold schemaArgs
  split <;> rfl

/-- The job that creates the table is told the first layer. -/
theorem layers_createJob (b : Brief) (s : VectorSource) :
    (createJob b s).layers = [s.resolvedLayers.headD ""] := by
  simp [createJob, layerArgs, flagValues, layers_schemaArgs]

theorem layers_of_mem_layerJobs {j : Job} (hj : j ∈ (layerJobs b s).1) :
    ∃ layer ∈ s.resolvedLayers, j.layers = [layer] := by
  have htold := List.mem_map_of_mem (f := fun j : Job => (j.sources, j.layers)) hj
  rw [told_layerJobs] at htold
  obtain ⟨layer, hlayer, h⟩ := List.mem_map.mp htold
  exact ⟨layer, hlayer, (Prod.mk.inj h).2.symm⟩

theorem layers_of_mem_chunkJobs {j : Job} (hj : j ∈ chunkJobs b s) : j.layers = [] := by
  have hargs : ∀ files, flagValues "-l" (sourceArgs files) = [] := by
    intro files
    induction files with
    | nil => rfl
    | cons file files ih => exact ih
  obtain ⟨i, hi, rfl⟩ := List.mem_mapIdx.mp hj
  exact hargs _

/-- Besides the first job only load jobs are told of layers. -/
theorem layers_of_mem_parts {loaded : List Job × List String} {j : Job}
    (hj : j ∈ (parts b s loaded).jobs) :
    j = createJob b s ∨ j ∈ loaded.1 ∨ j.layers = [] := by
  simp only [Parts.jobs, Parts.later, List.mem_cons, List.mem_append, List.not_mem_nil, or_false,
    Option.mem_toList] at hj
  rcases hj with rfl | (((hj | rfl) | hj) | hj) | hj
  · exact Or.inl rfl
  · exact Or.inr (Or.inl hj)
  · exact Or.inr (Or.inr rfl)
  · obtain ⟨index, -, rfl⟩ := List.mem_map.mp hj
    exact Or.inr (Or.inr rfl)
  · obtain ⟨index, -, rfl⟩ := Option.map_eq_some_iff.mp (Option.mem_toList.mp hj)
    exact Or.inr (Or.inr rfl)
  · unfold parts at hj
    dsimp only at hj
    split at hj
    · cases hj
      exact Or.inr (Or.inr rfl)
    · cases hj

end Vector

/-- The jobs of an accepted plan are the parts of the plan, given the load jobs. -/
theorem exists_parts_of_build (hoptions : b.asset.options = some (.vectorSource s))
    (hg : build b = .ok g) :
    ∃ loaded, Vector.loadJobs b s = .ok loaded ∧ g.jobs = (Vector.parts b s loaded).jobs := by
  obtain ⟨js, hjs, hof⟩ := ofJobs_of_build hoptions hg
  obtain ⟨loaded, hload, _⟩ := bind_eq_ok_iff.mp hjs
  obtain rfl := Except.ok.inj ((Vector.jobs_eq hload).symm.trans hjs)
  exact ⟨loaded, hload, JobGraph.jobs_of_ofJobs hof⟩

/-- Some job of an accepted plan is told of the first layer. -/
theorem exists_told_first (hoptions : b.asset.options = some (.vectorSource s))
    (hg : build b = .ok g) : ∃ j ∈ g.jobs, j.layers = [s.resolvedLayers.headD ""] := by
  obtain ⟨loaded, _, hjobs⟩ := exists_parts_of_build hoptions hg
  refine ⟨Vector.createJob b s, ?_, Vector.layers_createJob b s⟩
  rw [hjobs]
  exact List.mem_cons_self

/-- A job of an accepted plan is told of one layer of the source, or of none. -/
theorem layers_of_build (hoptions : b.asset.options = some (.vectorSource s)) (hg : build b = .ok g)
    {j : Job} (hj : j ∈ g.jobs) :
    j.layers = [] ∨ ∃ layer ∈ s.resolvedLayers, j.layers = [layer] := by
  obtain ⟨loaded, hload, hjobs⟩ := exists_parts_of_build hoptions hg
  rw [hjobs] at hj
  rcases Vector.layers_of_mem_parts hj with rfl | hj | hnone
  · -- the job that creates the table is told of the first layer, and there is one
    obtain ⟨layer, layers, hlayers⟩ := List.exists_cons_of_ne_nil
      (VectorSource.resolvedLayers_ne_nil (valid_of_build hoptions hg).1)
    refine Or.inr ⟨layer, ?_, ?_⟩
    · rw [hlayers]
      exact List.mem_cons_self
    · rw [Vector.layers_createJob, hlayers]
      rfl
  · rcases Vector.loadJobs_cases hload with ⟨_, _, rfl⟩ | ⟨_, rfl⟩
    · exact Or.inl (Vector.layers_of_mem_chunkJobs hj)
    · exact Or.inr (Vector.layers_of_mem_layerJobs hj)
  · exact Or.inl hnone

/-- Which layers of a vector source have no name, and what the jobs of its plans are told of
them. -/
structure NamesLayers (s : VectorSource) : Prop where
  nonempty : s.resolvedLayers ≠ []
  /-- All layers have names, unless they are not given and the first file names none. -/
  nameless : "" ∈ s.resolvedLayers ↔
    s.layers = none ∧ FileName.IsNameless (Vector.firstFile s)
  told : ∀ b g, b.asset.options = some (.vectorSource s) → build b = .ok g → ∀ j ∈ g.jobs,
    j.layers = [] ∨ ∃ layer ∈ s.resolvedLayers, j.layers = [layer]
  /-- Some job is told to load a layer without a name if and only if there is one. -/
  toldNameless : ∀ b g, b.asset.options = some (.vectorSource s) → build b = .ok g →
    ((∃ j ∈ g.jobs, "" ∈ j.layers) ↔ "" ∈ s.resolvedLayers)

/-- A valid source has layers, but they need not all have names. -/
theorem namesLayers_of_validate (h : s.validate = .ok ()) : NamesLayers s := by
  have hnameless := VectorSource.empty_mem_resolvedLayers_iff h
  refine ⟨VectorSource.resolvedLayers_ne_nil h, hnameless,
    fun b g hoptions hg j hj => layers_of_build hoptions hg hj, fun b g hoptions hg => ?_⟩
  constructor
  · rintro ⟨j, hj, hempty⟩
    rcases layers_of_build hoptions hg hj with hnone | ⟨layer, hlayer, hone⟩
    · rw [hnone] at hempty
      cases hempty
    · rw [hone, List.mem_singleton] at hempty
      exact hempty ▸ hlayer
  · intro hempty
    -- then there is one layer only, of which some job is told
    have hone := VectorSource.resolvedLayers_of_none h (hnameless.mp hempty).1
    obtain ⟨j, hj, htold⟩ := exists_told_first hoptions hg
    rw [hone, List.mem_singleton] at hempty
    rw [hone, ← hempty] at htold
    exact ⟨j, hj, htold ▸ List.mem_cons_self⟩

namespace Sample

/-- A source of which the first file is a folder. -/
def folder : VectorSource where
  driver := .gpkg
  files := ["s3://uploads/d/"]
  indices := []

end Sample

set_option maxRecDepth 100000 in
theorem folder_namesLayers : Sample.folder.validate = .ok () ∧ NamesLayers Sample.folder :=
  ⟨by decide, namesLayers_of_validate (by decide)⟩

set_option maxRecDepth 100000 in
/-- A valid source has a layer without a name, and its plan is accepted. -/
theorem folder_nameless : Sample.folder.validate = .ok () ∧ "" ∈ Sample.folder.resolvedLayers ∧
    ∃ g, build (Sample.brief (.vectorSource Sample.folder)) = .ok g ∧
      ∃ j ∈ g.jobs, "" ∈ j.layers := by
  have hempty : "" ∈ Sample.folder.resolvedLayers := by decide
  obtain ⟨g, hg⟩ : ∃ g, build (Sample.brief (.vectorSource Sample.folder)) = .ok g := by
    refine (exists_build_iff (by decide) (by decide) (by decide) rfl rfl (Or.inl ⟨_, rfl⟩)).mpr ?_
    exact ⟨by decide, by decide, by decide⟩
  obtain ⟨j, hj, htold⟩ := exists_told_first rfl hg
  refine ⟨by decide, hempty, g, hg, j, hj, ?_⟩
  rw [htold]
  decide

end Plan

end GeoAssets
