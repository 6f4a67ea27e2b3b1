import GeoAssets.Proofs.Plan.Files

/-!
# Which files layers are loaded from

A vector source that is no delimited text is loaded layer by layer, and all layers are loaded from
its first file (`Plan.LoadsFirstFile`). No job is told of another file. So the jobs of a plan read
all files of the source exactly if these are one file, which may be named more than once.
-/

namespace GeoAssets

namespace Job

/-- The layers that a job is told to load, by the arguments of its script. -/
def layers (j : Job) : List String :=
  flagValues "-l" j.command.tail

@[simp] theorem layers_withTimeout (j : Job) (timeout : Option UInt64) :
    (j.withTimeout timeout).layers = j.layers :=
  rfl

end Job

namespace Plan

variable {b : Brief} {s : VectorSource} {g : JobGraph}

@[simp] theorem Brief.layers_job (b : Brief) (name : String) (kind : JobKind) (script : String)
    (args : List String) : (b.job name kind script args).layers = flagValues "-l" args :=
  rfl

/-! ## Single jobs -/

namespace Vector

/-- How a vector source is loaded layer by layer. -/
def layerLoading (s : VectorSource) : Loading where
  script := "load_vector_data.sh"
  stem := "load_vector_data_layer_"
  files := [firstFile s]

/-- The jobs that load layers, lined up in queues. -/
def layerJobs (b : Brief) (s : VectorSource) : List Job × List String :=
  inQueues (createJob b s).name b.settings.maxLoadQueues.toNat
    (s.resolvedLayers.mapIdx (loadLayerJob b s))

/-- The arguments for the columns of the table name no file. -/
theorem flagValues_schemaArgs (s : VectorSource) : flagValues "-s" (schemaArgs s) = [] := by
  unfold schemaArgs
  split <;> rfl

theorem sources_createJob (b : Brief) (s : VectorSource) :
    (createJob b s).sources = [firstFile s] := by
  simp [createJob, layerArgs, flagValues, flagValues_schemaArgs]

/-- The layer jobs are told what they would be told outside of queues. -/
theorem map_layerJobs {α : Type} {f : Job → α} (b : Brief) (s : VectorSource)
    (hf : ∀ j parents, f (j.withParents parents) = f j) {told : String → α}
    (hload : ∀ i layer, f (loadLayerJob b s i layer) = told layer) :
    (layerJobs b s).1.map f = s.resolvedLayers.map told := by
  refine (map_lineUp hf _ 0 _ _).trans ?_
  exact List.ext_getElem (by simp) fun i _ _ => by simp [hload]

theorem script_of_mem_layerJobs {j : Job} (hj : j ∈ (layerJobs b s).1) :
    j.script = (layerLoading s).script := by
  have hscripts : (layerJobs b s).1.map (·.script) =
      s.resolvedLayers.map fun _ => (layerLoading s).script :=
    map_layerJobs b s (fun _ _ => rfl) fun _ _ => rfl
  have hmem := hscripts ▸ List.mem_map_of_mem (f := Job.script) hj
  obtain ⟨_, _, h⟩ := List.mem_map.mp hmem
  exact h.symm

/-- Each layer is loaded by one job from the first file. -/
theorem told_layerJobs (b : Brief) (s : VectorSource) :
    (layerJobs b s).1.map (fun j => (j.sources, j.layers)) =
      s.resolvedLayers.map fun layer => ([firstFile s], [layer]) :=
  map_layerJobs b s (fun _ _ => rfl) fun _ _ => by simp [loadLayerJob, layerArgs, flagValues]

/-- No part of the plan names a file other than the first. -/
theorem eq_firstFile_of_mem_sources {j : Job} (hj : j ∈ (parts b s (layerJobs b s)).jobs)
    {file : String} (hfile : file ∈ j.sources) : file = firstFile s := by
  simp only [Parts.jobs, Parts.later, List.mem_cons, List.mem_append, List.not_mem_nil, or_false,
    Option.mem_toList] at hj
  rcases hj with rfl | (((hj | rfl) | hj) | hj) | hj
  · simpa [parts, sources_createJob] using hfile
  · have htold := List.mem_map_of_mem (f := fun j : Job => (j.sources, j.layers)) hj
    change _ ∈ (layerJobs b s).1.map _ at htold
    rw [told_layerJobs] at htold
    obtain ⟨layer, -, h⟩ := List.mem_map.mp htold
    rw [← (Prod.mk.inj h).1] at hfile
    exact List.mem_singleton.mp hfile
  · cases hfile
  · obtain ⟨index, -, rfl⟩ := List.mem_map.mp hj
    simp [indexArgs, flagValues] at hfile
  · obtain ⟨index, -, rfl⟩ := Option.map_eq_some_iff.mp (Option.mem_toList.mp hj)
    simp [clusterJob, indexArgs, flagValues] at hfile
  · unfold parts at hj
    dsimp only at hj
    split at hj
    · cases hj
      cases hfile
    · cases hj

end Vector

/-! ## Plans -/

/-- Every file of a source is named to some job of a plan. -/
def ReadsAll (s : VectorSource) (g : JobGraph) : Prop :=
  ∀ file ∈ s.files, ∃ j ∈ g.jobs, file ∈ j.sources

/-- The plan for a source loads its layers from its first file. -/
structure LoadsFirstFile (s : VectorSource) (g : JobGraph) : Prop where
  /-- There is one load job for each layer, in the order of the layers. -/
  layers : ((Vector.layerLoading s).jobs g.jobs).map (fun j => (j.sources, j.layers)) =
    s.resolvedLayers.map fun layer => ([Vector.firstFile s], [layer])
  /-- No job is told of another file. -/
  only : ∀ j ∈ g.jobs, ∀ file ∈ j.sources, file = Vector.firstFile s
  /-- All files are read if and only if they are one. -/
  readsAll_iff : ReadsAll s g ↔ ∀ file ∈ s.files, file = Vector.firstFile s

/-- Every accepted plan for a vector source that is no delimited text loads all layers from the
first file. -/
theorem build_loadsFirstFile (hcsv : s.driver ≠ .csv)
    (hoptions : b.asset.options = some (.vectorSource s)) (hg : build b = .ok g) :
    LoadsFirstFile s g := by
  obtain ⟨js, hjs, hof⟩ := ofJobs_of_build hoptions hg
  obtain rfl := Except.ok.inj
    ((Vector.jobs_eq (Vector.loadJobs_of_layers hcsv)).symm.trans hjs)
  have hjobs : g.jobs = (Vector.parts b s (Vector.layerJobs b s)).jobs :=
    JobGraph.jobs_of_ofJobs hof
  constructor
  case layers =>
    rw [hjobs, Vector.jobs_parts b s (Or.inr rfl) fun _ hj => Vector.script_of_mem_layerJobs hj]
    exact Vector.told_layerJobs b s
  case only =>
    intro j hj file hfile
    exact Vector.eq_firstFile_of_mem_sources (hjobs ▸ hj) hfile
  case readsAll_iff =>
    refine ⟨fun h file hfile => ?_, fun h file hfile => ?_⟩
    · obtain ⟨j, hj, hmem⟩ := h file hfile
      exact Vector.eq_firstFile_of_mem_sources (hjobs ▸ hj) hmem
    · refine ⟨Vector.createJob b s, ?_, ?_⟩
      · rw [hjobs]
        exact List.mem_cons_self
      · rw [h file hfile, Vector.sources_createJob]
        exact List.mem_cons_self

namespace Sample

/-- Five layers, and a second file that has them, too. -/
def halves : VectorSource :=
  { layers with files := ["north.gpkg", "south.gpkg"] }

end Sample

set_option maxRecDepth 100000 in
theorem layers_loadsFirstFile : ∃ g, build (Sample.brief (.vectorSource Sample.layers)) = .ok g ∧
    LoadsFirstFile Sample.layers g ∧ ReadsAll Sample.layers g := by
  obtain ⟨g, hg⟩ : ∃ g, build (Sample.brief (.vectorSource Sample.layers)) = .ok g := by
    refine (exists_build_iff (by decide) (by decide) (by decide) rfl rfl (Or.inl ⟨_, rfl⟩)).mpr ?_
    exact ⟨by decide, by decide, by decide⟩
  have hloads := build_loadsFirstFile (s := Sample.layers) (by decide) rfl hg
  exact ⟨g, hg, hloads, hloads.readsAll_iff.mpr (by decide)⟩

set_option maxRecDepth 100000 in
/-- A plan for two files is accepted, but no job is told of the second one. -/
theorem halves_not_readsAll : ∃ g, build (Sample.brief (.vectorSource Sample.halves)) = .ok g ∧
    "south.gpkg" ∈ Sample.halves.files ∧ (∀ j ∈ g.jobs, "south.gpkg" ∉ j.sources) ∧
    ¬ ReadsAll Sample.halves g := by
  obtain ⟨g, hg⟩ : ∃ g, build (Sample.brief (.vectorSource Sample.halves)) = .ok g := by
    refine (exists_build_iff (by decide) (by decide) (by decide) rfl rfl (Or.inl ⟨_, rfl⟩)).mpr ?_
    exact ⟨by decide, by decide, by decide⟩
  obtain ⟨js, hjs, hof⟩ := ofJobs_of_build rfl hg
  obtain rfl := Except.ok.inj
    ((Vector.jobs_eq (Vector.loadJobs_of_layers (by decide))).symm.trans hjs)
  have hunread : ∀ j ∈ g.jobs, "south.gpkg" ∉ j.sources := by
    intro j hj hfile
    rw [JobGraph.jobs_of_ofJobs hof] at hj
    have hfirst := Vector.eq_firstFile_of_mem_sources hj hfile
    revert hfirst
    decide
  refine ⟨g, hg, by decide, hunread, fun hall => ?_⟩
  obtain ⟨j, hj, hfile⟩ := hall "south.gpkg" (by decide)
  exact hunread j hj hfile

end Plan

end GeoAssets
