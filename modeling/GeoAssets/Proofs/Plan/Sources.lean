import GeoAssets.Plan.Table
import GeoAssets.Plan.Vector
import GeoAssets.Proofs.Options.Source
import GeoAssets.Proofs.Plan.Names

/-!
# The parts of the plans for sources

The jobs for a valid vector source and for a valid table source are wired parts
(`Vector.parts_wired`, `Table.parts_wired`), of which the names are those of a template.
-/

namespace GeoAssets.Plan

/-! ## Chunks of files -/

/-- The number of files for each job that loads files, if so many jobs may share them. -/
def chunkSize (files limit : Nat) : Nat :=
  max (ceilDiv files limit) 1

theorem chunkSize_pos (files limit : Nat) : 0 < chunkSize files limit :=
  Nat.lt_of_lt_of_le Nat.one_pos (Nat.le_max_right _ _)

theorem filesPerJob_eq {limit : UInt64} (h : 1 ≤ limit.toNat) (files : Nat) :
    filesPerJob files limit = .ok (chunkSize files limit.toNat) := by
  refine if_neg ?_
  rintro rfl
  cases h

theorem one_le_toNat_iff {limit : UInt64} : 1 ≤ limit.toNat ↔ limit ≠ 0 := by
  rw [ne_eq, ← UInt64.toNat_inj, UInt64.toNat_zero]
  omega

/-- Files can be shared by some jobs only. -/
theorem one_le_of_filesPerJob {limit : UInt64} {files size : Nat}
    (h : filesPerJob files limit = .ok size) : 1 ≤ limit.toNat := by
  rw [one_le_toNat_iff]
  rintro rfl
  cases h

/-- The number of jobs that load files. -/
def chunkCount (files limit : Nat) : Nat :=
  ceilDiv files (chunkSize files limit)

/-- There are no more of them than may share the files. -/
theorem chunkCount_le {limit : Nat} (h : 1 ≤ limit) (files : Nat) :
    chunkCount files limit ≤ limit := by
  rw [chunkCount, ceilDiv_le_iff (chunkSize_pos files limit), Nat.mul_comm, ← ceilDiv_le_iff h]
  exact Nat.le_max_left _ _

/-- Jobs that load chunks of files stand in queues of one job. -/
theorem chunks_queued {files : List String} (hfiles : files ≠ []) (limit : Nat) (root : String)
    (load : Nat → List String → Job) (hload : ∀ i chunk, (load i chunk).parents = [root]) :
    Queued root (chunkCount files.length limit)
      ((chunks (chunkSize files.length limit) files).mapIdx load)
      (names ((chunks (chunkSize files.length limit) files).mapIdx load)) := by
  have hpos := chunkSize_pos files.length limit
  have hlength : chunkCount files.length limit =
      ((chunks (chunkSize files.length limit) files).mapIdx load).length := by
    rw [List.length_mapIdx, length_chunks hpos, chunkCount]
  rw [hlength]
  refine queued_of_parents ?_ fun j hj => ?_
  · rw [ne_eq, List.mapIdx_eq_nil_iff, chunks_of_ne_nil hpos hfiles]
    exact List.cons_ne_nil _ _
  · obtain ⟨i, hi, rfl⟩ := List.mem_mapIdx.mp hj
    exact hload i _

theorem names_chunks {files : List String} (limit : Nat) {load : Nat → List String → Job}
    {name : Nat → String} (hload : ∀ i chunk, (load i chunk).name = name i) :
    names ((chunks (chunkSize files.length limit) files).mapIdx load) =
      (List.range (chunkCount files.length limit)).map name := by
  rw [names_mapIdx hload, length_chunks (chunkSize_pos _ _), chunkCount]

/-! ## Vector sources -/

namespace Vector

/-- The number of jobs that load a vector source. -/
def loadCount (limit : Nat) (s : VectorSource) : Nat :=
  if s.driver = .csv then chunkCount s.files.length limit else s.resolvedLayers.length

/-- How the names of the jobs that load a vector source begin. -/
def loadPrefix (s : VectorSource) : String :=
  if s.driver = .csv then "load_vector_csv_data_" else "load_vector_data_layer_"

/-- The names of the jobs for a vector source. -/
def template (limit : Nat) (s : VectorSource) : Template where
  create := "create_vector_schema"
  loads := (List.range (loadCount limit s)).map fun i => loadPrefix s ++ toString i
  enrich := "add_gfw_fields"
  indices := s.indices.map fun i => "create_index_" ++ i.slug
  clusters := if s.cluster.isSome then ["cluster_table"] else []
  closing := if s.addToGeostore then some "inherit_from_geostore" else none

/-- The jobs for a vector source, part by part, after the load jobs and the names of the last
ones. -/
def parts (b : Brief) (s : VectorSource) (loaded : List Job × List String) : Parts :=
  let enrich := enrichJob b s loaded.2
  let indices := indexJobs b enrich.name s.timeout s.indices
  let clusters := (s.cluster.map (clusterJob b s (namesOr enrich.name indices))).toList
  { create := createJob b s
    loads := loaded.1
    enrich := enrich
    indices := indices
    clusters := clusters
    closing := if s.addToGeostore then
      some (inheritJob b s (namesOr enrich.name (indices ++ clusters))) else none }

theorem jobs_eq {b : Brief} {s : VectorSource} {loaded : List Job × List String}
    (h : loadJobs b s = .ok loaded) : jobs b s = .ok (parts b s loaded).jobs := by
  unfold jobs
  rw [h]
  cases hgeostore : s.addToGeostore <;>
    simp [bind, Except.bind, pure, Except.pure, Parts.jobs, Parts.later, parts, hgeostore]

/-- The load jobs have the names of the template and stand in queues, and there are no more queues
than a job may wait for. -/
def LoadsInQueues (b : Brief) (s : VectorSource) : Prop :=
  ∃ loaded queues, loadJobs b s = .ok loaded ∧
    Queued (createJob b s).name queues loaded.1 loaded.2 ∧
    queues ≤ b.settings.maxParents.toNat ∧
    names loaded.1 = (template b.settings.maxParents.toNat s).loads

/-- The jobs that load delimited text, if so many of them may share the files. -/
def chunkJobs (b : Brief) (s : VectorSource) : List Job :=
  (chunks (chunkSize s.files.length b.settings.maxParents.toNat) s.files).mapIdx (loadChunkJob b s)

theorem loadJobs_of_csv {b : Brief} {s : VectorSource} (hcsv : s.driver = .csv)
    (hparents : 1 ≤ b.settings.maxParents.toNat) :
    loadJobs b s = .ok (chunkJobs b s, names (chunkJobs b s)) := by
  unfold loadJobs
  rw [hcsv]
  dsimp only
  rw [filesPerJob_eq hparents]
  rfl

theorem chunkJobs_queued {b : Brief} {s : VectorSource} (hfiles : s.files ≠ []) :
    Queued (createJob b s).name (chunkCount s.files.length b.settings.maxParents.toNat)
      (chunkJobs b s) (names (chunkJobs b s)) :=
  chunks_queued hfiles b.settings.maxParents.toNat _ (loadChunkJob b s) fun _ _ => rfl

/-- Layers are loaded by one job each, which are lined up. -/
theorem loadJobs_of_layers {b : Brief} {s : VectorSource} (hcsv : s.driver ≠ .csv) :
    loadJobs b s = .ok (inQueues (createJob b s).name b.settings.maxLoadQueues.toNat
      (s.resolvedLayers.mapIdx (loadLayerJob b s))) := by
  unfold loadJobs
  split
  · exact absurd ‹_› hcsv
  · rfl

theorem layerJobs_queued {b : Brief} {s : VectorSource} (hv : s.validate = .ok ()) (queues : Nat) :
    Queued (createJob b s).name
      (queueCount queues (s.resolvedLayers.mapIdx (loadLayerJob b s)).length)
      (inQueues (createJob b s).name queues (s.resolvedLayers.mapIdx (loadLayerJob b s))).1
      (inQueues (createJob b s).name queues (s.resolvedLayers.mapIdx (loadLayerJob b s))).2 := by
  refine inQueues_queued _ queues ?_
  rw [ne_eq, List.mapIdx_eq_nil_iff]
  exact VectorSource.resolvedLayers_ne_nil hv

/-- How the load jobs were made. -/
theorem loadJobs_cases {b : Brief} {s : VectorSource} {loaded : List Job × List String}
    (h : loadJobs b s = .ok loaded) :
    (s.driver = .csv ∧ 1 ≤ b.settings.maxParents.toNat ∧
        loaded = (chunkJobs b s, names (chunkJobs b s))) ∨
      (s.driver ≠ .csv ∧ loaded = inQueues (createJob b s).name b.settings.maxLoadQueues.toNat
        (s.resolvedLayers.mapIdx (loadLayerJob b s))) := by
  by_cases hcsv : s.driver = .csv
  · have hparents : 1 ≤ b.settings.maxParents.toNat := by
      unfold loadJobs at h
      rw [hcsv] at h
      obtain ⟨size, hsize, _⟩ := bind_eq_ok_iff.mp h
      exact one_le_of_filesPerJob hsize
    exact Or.inl ⟨hcsv, hparents, Except.ok.inj (h.symm.trans (loadJobs_of_csv hcsv hparents))⟩
  · exact Or.inr ⟨hcsv, Except.ok.inj (h.symm.trans (loadJobs_of_layers hcsv))⟩

/-- Whatever the settings are, the load jobs have the names of the template. -/
theorem names_of_loadJobs {b : Brief} {s : VectorSource} {loaded : List Job × List String}
    (h : loadJobs b s = .ok loaded) :
    names loaded.1 = (template b.settings.maxParents.toNat s).loads := by
  rcases loadJobs_cases h with ⟨hcsv, _, rfl⟩ | ⟨hcsv, rfl⟩
  · have hload : ∀ i chunk, (loadChunkJob b s i chunk).name = loadPrefix s ++ toString i :=
      fun i _ => by rw [loadPrefix, if_pos hcsv]; rfl
    refine (names_chunks _ hload).trans ?_
    rw [template, loadCount, if_pos hcsv]
  · have hload : ∀ i layer, (loadLayerJob b s i layer).name = loadPrefix s ++ toString i :=
      fun i _ => by rw [loadPrefix, if_neg hcsv]; rfl
    refine (map_name_lineUp _ 0 _ _).trans ?_
    rw [← names, names_mapIdx hload, template, loadCount, if_neg hcsv]

/-- Delimited text is loaded by jobs in queues of one job. -/
theorem loadsInQueues_of_csv {b : Brief} {s : VectorSource} (hcsv : s.driver = .csv)
    (hv : s.validate = .ok ()) (hparents : 1 ≤ b.settings.maxParents.toNat) :
    LoadsInQueues b s :=
  ⟨_, _, loadJobs_of_csv hcsv hparents, chunkJobs_queued (VectorSource.files_ne_nil hv),
    chunkCount_le hparents _, names_of_loadJobs (loadJobs_of_csv hcsv hparents)⟩

/-- Layers are loaded by jobs that are lined up. -/
theorem loadsInQueues_of_layers {b : Brief} {s : VectorSource} (hcsv : s.driver ≠ .csv)
    (hv : s.validate = .ok ()) (hqueues : 1 ≤ b.settings.maxLoadQueues.toNat)
    (hle : b.settings.maxLoadQueues.toNat ≤ b.settings.maxParents.toNat) :
    LoadsInQueues b s := by
  have hload := loadJobs_of_layers (b := b) hcsv
  refine ⟨_, _, hload, layerJobs_queued hv _, ?_, names_of_loadJobs hload⟩
  unfold queueCount
  omega

theorem loadsInQueues {b : Brief} {s : VectorSource} (hv : s.validate = .ok ())
    (hparents : 1 ≤ b.settings.maxParents.toNat) (hqueues : 1 ≤ b.settings.maxLoadQueues.toNat)
    (hle : b.settings.maxLoadQueues.toNat ≤ b.settings.maxParents.toNat) :
    LoadsInQueues b s := by
  by_cases hcsv : s.driver = .csv
  · exact loadsInQueues_of_csv hcsv hv hparents
  · exact loadsInQueues_of_layers hcsv hv hqueues hle

theorem parts_wired {b : Brief} {s : VectorSource} {loaded : List Job × List String} {queues : Nat}
    (h : Queued (createJob b s).name queues loaded.1 loaded.2) :
    (parts b s loaded).Wired queues where
  create := rfl
  loads := h
  indices := fun _ hj => parents_of_mem_indexJobs hj
  clusters := by
    intro j hj
    obtain ⟨index, _, rfl⟩ := Option.map_eq_some_iff.mp (Option.mem_toList.mp hj)
    rfl
  closing := by
    intro j hj
    unfold parts at hj
    dsimp only at hj
    split at hj
    · cases hj
      rfl
    · cases hj

theorem template_parts {b : Brief} {s : VectorSource} {loaded : List Job × List String}
    {limit : Nat} (h : names loaded.1 = (template limit s).loads) :
    (parts b s loaded).template = template limit s := by
  have hindices : names (parts b s loaded).indices =
      s.indices.map fun i => "create_index_" ++ i.slug :=
    names_indexJobs _ _ _ _
  have hclusters : names (parts b s loaded).clusters =
      if s.cluster.isSome then ["cluster_table"] else [] := by
    unfold parts
    cases s.cluster <;> rfl
  have hclosing : (parts b s loaded).closing.map (·.name) =
      if s.addToGeostore then some "inherit_from_geostore" else none := by
    unfold parts
    cases s.addToGeostore <;> rfl
  rw [Parts.template, hindices, hclusters, hclosing, template]
  congr

/-- The names of the jobs are distinct if those of the indices are. -/
theorem nodup_template (limit : Nat) (s : VectorSource) :
    (template limit s).names.Nodup ↔ (s.indices.map (·.slug)).Nodup := by
  have hload : stem (loadPrefix s) = stem "load_vector_" := by
    unfold loadPrefix
    split <;> decide
  have hloads : (template limit s).loads.Nodup ∧
      ∀ n ∈ (template limit s).loads, stem n = stem "load_vector_" := by
    refine ⟨nodup_numbered _ _, fun n hn => ?_⟩
    obtain ⟨i, _, rfl⟩ := List.mem_map.mp hn
    rw [← hload]
    refine stem_append ?_ _
    unfold loadPrefix
    split <;> decide
  have hindices : ∀ n ∈ (template limit s).indices, stem n = stem "create_index_" := by
    intro n hn
    obtain ⟨i, _, rfl⟩ := List.mem_map.mp hn
    exact stem_append (by decide) _
  have hclusters : (template limit s).clusters.Nodup ∧
      ∀ n ∈ (template limit s).clusters, stem n = stem "cluster_table" := by
    unfold template
    cases s.cluster <;> simp
  have hclosing : ∀ n ∈ (template limit s).closing, stem n = stem "inherit_from_geostore" := by
    unfold template
    cases s.addToGeostore <;> simp
  refine (Template.nodup_names_iff ?_ hloads hindices hclusters hclosing).trans
    (nodup_append_iff _ _ _)
  change [stem "create_vector_schema", _, stem "add_gfw_fields", _, _, _].Nodup
  decide

end Vector

/-! ## Table sources -/

namespace Table

/-- The names of the jobs for a table source. -/
def template (limit : Nat) (s : TableSource) : Template where
  create := "create_table"
  loads := (List.range (chunkCount s.files.length limit)).map fun i =>
    "load_tabular_data_" ++ toString i
  enrich := "enrich_table"
  indices := s.indices.map fun i => "create_index_" ++ i.slug
  clusters := s.partitionSuffixes.map ("cluster_partition_" ++ ·)
  closing := none

/-- The load jobs, if so many of them may share the files. -/
def loadJobs (b : Brief) (s : TableSource) : List Job :=
  (chunks (chunkSize s.files.length b.settings.maxParents.toNat) s.files).mapIdx (loadJob b s)

/-- The jobs for a table source, part by part. -/
def parts (b : Brief) (s : TableSource) : Parts :=
  let enrich := enrichJob b s (names (loadJobs b s))
  let indices := indexJobs b enrich.name s.timeout s.indices
  { create := createJob b s
    loads := loadJobs b s
    enrich := enrich
    indices := indices
    clusters := clusterJobs b s (namesOr enrich.name indices)
    closing := none }

theorem jobs_eq {b : Brief} {s : TableSource} (hparents : 1 ≤ b.settings.maxParents.toNat) :
    jobs b s = .ok (parts b s).jobs := by
  unfold jobs
  rw [filesPerJob_eq hparents]
  simp [bind, Except.bind, pure, Except.pure, Parts.jobs, Parts.later, parts, loadJobs]

theorem parts_wired {b : Brief} {s : TableSource} (hfiles : s.files ≠ []) :
    (parts b s).Wired (chunkCount s.files.length b.settings.maxParents.toNat) where
  create := rfl
  loads := chunks_queued hfiles b.settings.maxParents.toNat
    (createJob b s).name (loadJob b s) fun _ _ => rfl
  indices := fun _ hj => parents_of_mem_indexJobs hj
  clusters := by
    intro j hj
    unfold parts clusterJobs at hj
    dsimp only at hj
    split at hj
    · obtain ⟨suffix, _, rfl⟩ := List.mem_map.mp hj
      rfl
    · cases hj
  closing := nofun

theorem template_parts (b : Brief) (s : TableSource) :
    (parts b s).template = template b.settings.maxParents.toNat s := by
  have hloads : names (parts b s).loads = (template b.settings.maxParents.toNat s).loads :=
    names_chunks _ fun _ _ => rfl
  have hindices : names (parts b s).indices = s.indices.map fun i => "create_index_" ++ i.slug :=
    names_indexJobs _ _ _ _
  have hclusters : names (parts b s).clusters =
      s.partitionSuffixes.map ("cluster_partition_" ++ ·) := by
    unfold parts clusterJobs TableSource.partitionSuffixes
    cases s.partitions with
    | none => rfl
    | some p => exact List.map_map
  rw [Parts.template, hloads, hindices, hclusters, template]
  congr

/-- The names of the jobs are distinct if those of the indices are. -/
theorem nodup_template (limit : Nat) {s : TableSource} (hv : s.validate = .ok ()) :
    (template limit s).names.Nodup ↔ (s.indices.map (·.slug)).Nodup := by
  have hloads : (template limit s).loads.Nodup ∧
      ∀ n ∈ (template limit s).loads, stem n = stem "load_tabular_data_" := by
    refine ⟨nodup_numbered _ _, fun n hn => ?_⟩
    obtain ⟨i, _, rfl⟩ := List.mem_map.mp hn
    exact stem_append (by decide) _
  have hindices : ∀ n ∈ (template limit s).indices, stem n = stem "create_index_" := by
    intro n hn
    obtain ⟨i, _, rfl⟩ := List.mem_map.mp hn
    exact stem_append (by decide) _
  have hclusters : (template limit s).clusters.Nodup ∧
      ∀ n ∈ (template limit s).clusters, stem n = stem "cluster_partition_" := by
    refine ⟨?_, fun n hn => ?_⟩
    · exact (TableSource.nodup_partitionSuffixes hv).map fun _ _ => (String.append_right_inj _).mp
    · obtain ⟨suffix, _, rfl⟩ := List.mem_map.mp hn
      exact stem_append (by decide) _
  have hclosing : ∀ n ∈ (template limit s).closing, stem n = stem "" := nofun
  refine (Template.nodup_names_iff ?_ hloads hindices hclusters hclosing).trans
    (nodup_append_iff _ _ _)
  change [stem "create_table", _, stem "enrich_table", _, _, _].Nodup
  decide

end Table

end GeoAssets.Plan
