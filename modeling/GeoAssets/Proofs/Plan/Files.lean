import GeoAssets.Proofs.Compute.Order
import GeoAssets.Proofs.Plan.Accepted

/-!
# Which job loads which files

Tables and vector sources of delimited text are loaded file by file. Their files are divided among
load jobs, and each job names the files that it loads by arguments of its command. Together the load
jobs name every file once and in order, and there are no more of them than a job may wait for
(`Plan.Divides`).
-/

namespace GeoAssets

/-! ## Commands -/

/-- The values that a flag has in the arguments of a command, which are flags with a value each, and
perhaps a flag without one at the end. -/
def flagValues (flag : String) : List String → List String
  | name :: value :: args =>
    if name = flag then value :: flagValues flag args else flagValues flag args
  | _ => []

namespace Job

/-- The script that a job calls. -/
def script (j : Job) : String :=
  j.command.headD ""

/-- The files that a job is told to load, by the arguments of its script. -/
def sources (j : Job) : List String :=
  flagValues "-s" j.command.tail

@[simp] theorem script_withParents (j : Job) (parents : List String) :
    (j.withParents parents).script = j.script :=
  rfl

@[simp] theorem script_withTimeout (j : Job) (timeout : Option UInt64) :
    (j.withTimeout timeout).script = j.script :=
  rfl

@[simp] theorem sources_withParents (j : Job) (parents : List String) :
    (j.withParents parents).sources = j.sources :=
  rfl

@[simp] theorem sources_withTimeout (j : Job) (timeout : Option UInt64) :
    (j.withTimeout timeout).sources = j.sources :=
  rfl

end Job

namespace Plan

variable {b : Brief} {options : CreationOptions}

@[simp] theorem Brief.script_job (b : Brief) (name : String) (kind : JobKind) (script : String)
    (args : List String) : (b.job name kind script args).script = script :=
  rfl

/-- The dataset and the version, which all scripts are told, are no files. -/
@[simp] theorem Brief.sources_job (b : Brief) (name : String) (kind : JobKind) (script : String)
    (args : List String) : (b.job name kind script args).sources = flagValues "-s" args :=
  rfl

/-- Files that are named by arguments are read off them, in front of other arguments. -/
theorem flagValues_sourceArgs_append (files args : List String) :
    flagValues "-s" (sourceArgs files ++ args) = files ++ flagValues "-s" args := by
  induction files with
  | nil => rfl
  | cons file files ih =>
    rw [List.cons_append, ← ih]
    rfl

theorem flagValues_sourceArgs (files : List String) :
    flagValues "-s" (sourceArgs files) = files := by
  simpa [flagValues] using flagValues_sourceArgs_append files []

/-- No other argument of the script for tables names a file. -/
theorem flagValues_tableArgs (s : TableSource) :
    flagValues "-s" ("-D" :: s.delimiter.name :: Table.headerArgs s) = [] := by
  unfold Table.headerArgs
  split <;> rfl

/-! ## Slices -/

/-- The chunk of a number starts after as many chunks of full size. -/
theorem eq_of_getElem?_chunks {α : Type} {size i : Nat} {items chunk : List α}
    (h : (chunks size items)[i]? = some chunk) :
    chunk = items.extract (i * size) (min ((i + 1) * size) items.length) := by
  fun_induction chunks size items generalizing i with
  | case1 items hnone => simp at h
  | case2 items hsome ih =>
    cases i with
    | zero =>
      obtain rfl : items.take size = chunk := by simpa using h
      simp [List.take_eq_take_iff]
    | succ i =>
      rw [List.getElem?_cons_succ] at h
      rw [ih h]
      simp only [List.extract_eq_take_drop, List.drop_drop, List.length_drop, Nat.succ_mul]
      generalize i * size = start
      have hcount : min (start + size) (items.length - size) - start =
          min (start + size + size) items.length - (start + size) := by
        omega
      rw [hcount, Nat.add_comm size start]

/-- Chunks that are just large enough for a number of jobs are as large as the quotient, rounded
up. -/
theorem chunkSize_eq_ceilDiv {files limit : Nat} (hlimit : 1 ≤ limit) (hfiles : 1 ≤ files) :
    chunkSize files limit = files ⌈/⌉ limit := by
  have hsize : ceilDiv files limit = files ⌈/⌉ limit :=
    (Nat.ceilDiv_eq_add_pred_div files limit).symm
  have hpos : 1 ≤ ceilDiv files limit := by
    by_contra h
    have hnone : files ≤ 0 * limit := (ceilDiv_le_iff hlimit).mp (by omega)
    omega
  rw [chunkSize, ← hsize]
  omega

/-! ## Sources that are loaded file by file -/

/-- How a source is loaded file by file: the script, how the names of the jobs begin, and the
files. -/
structure Loading where
  script : String
  stem : String
  files : List String

/-- How a vector source of delimited text is loaded. -/
def Vector.loading (s : VectorSource) : Loading where
  script := "load_vector_csv_data.sh"
  stem := "load_vector_csv_data_"
  files := s.files

/-- How a table is loaded. -/
def Table.loading (s : TableSource) : Loading where
  script := "load_tabular_data.sh"
  stem := "load_tabular_data_"
  files := s.files

/-- Tables and vector sources of delimited text are loaded file by file. -/
def loading? : CreationOptions → Option Loading
  | .vectorSource s => if s.driver = .csv then some (Vector.loading s) else none
  | .tableSource s => some (Table.loading s)
  | _ => none

/-- The jobs of a list that load files. -/
def Loading.jobs (l : Loading) (jobs : List Job) : List Job :=
  jobs.filter (·.script = l.script)

/-- Load jobs divide files among themselves: each loads as many files as there would be for one of
`limit` jobs, those behind the files of the job before it. -/
structure Divides (l : Loading) (limit : Nat) (loads : List Job) : Prop where
  named : ∀ (i : Nat) (j : Job), loads[i]? = some j → j.name = l.stem ++ toString i
  slice : ∀ (i : Nat) (j : Job), loads[i]? = some j → j.sources =
    l.files.extract (i * (l.files.length ⌈/⌉ limit))
      (min ((i + 1) * (l.files.length ⌈/⌉ limit)) l.files.length)
  nonempty : ∀ j ∈ loads, j.sources ≠ []
  all : loads.flatMap (·.sources) = l.files
  length_le : loads.length ≤ limit
  single : l.files.length ≤ limit → ∀ j ∈ loads, ∃ file, j.sources = [file]

/-- Numbered jobs that each load a chunk divide the files. -/
theorem divides_mapIdx {l : Loading} {limit : Nat} (hlimit : 1 ≤ limit) (hfiles : l.files ≠ [])
    {load : Nat → List String → Job} (hname : ∀ i chunk, (load i chunk).name = l.stem ++ toString i)
    (hsources : ∀ i chunk, (load i chunk).sources = chunk) :
    Divides l limit ((chunks (chunkSize l.files.length limit) l.files).mapIdx load) := by
  have hsize := chunkSize_eq_ceilDiv hlimit (List.length_pos_iff.mpr hfiles)
  have hpos := chunkSize_pos l.files.length limit
  have hload : ∀ j ∈ (chunks (chunkSize l.files.length limit) l.files).mapIdx load,
      ∃ i chunk, j = load i chunk ∧ chunk ∈ chunks (chunkSize l.files.length limit) l.files := by
    intro j hj
    obtain ⟨i, hi, rfl⟩ := List.mem_mapIdx.mp hj
    exact ⟨i, _, rfl, List.getElem_mem hi⟩
  constructor
  case named =>
    intro i j hj
    rw [List.getElem?_mapIdx, Option.map_eq_some_iff] at hj
    obtain ⟨chunk, -, rfl⟩ := hj
    exact hname i chunk
  case slice =>
    intro i j hj
    rw [List.getElem?_mapIdx, Option.map_eq_some_iff] at hj
    obtain ⟨chunk, hchunk, rfl⟩ := hj
    rw [hsources, ← hsize]
    exact eq_of_getElem?_chunks hchunk
  case nonempty =>
    intro j hj
    obtain ⟨i, chunk, rfl, hchunk⟩ := hload j hj
    rw [hsources]
    exact ne_nil_of_mem_chunks hchunk
  case all =>
    have hmap : ((chunks (chunkSize l.files.length limit) l.files).mapIdx load).map (·.sources) =
        chunks (chunkSize l.files.length limit) l.files :=
      List.ext_getElem (by simp) fun i _ _ => by simp [hsources]
    rw [List.flatMap_def, hmap, flatten_chunks hpos]
  case length_le =>
    rw [List.length_mapIdx, length_chunks hpos]
    exact chunkCount_le hlimit l.files.length
  case single =>
    intro hle j hj
    obtain ⟨i, chunk, rfl, hchunk⟩ := hload j hj
    -- one file is enough for each job, and none has no file
    have hone : chunkSize l.files.length limit = 1 := by
      have hle : ceilDiv l.files.length limit ≤ 1 := (ceilDiv_le_iff hlimit).mpr (by omega)
      unfold chunkSize
      omega
    have hlength := length_le_of_mem_chunks hchunk
    have hne := List.length_pos_iff.mpr (ne_nil_of_mem_chunks hchunk)
    rw [hsources]
    exact List.length_eq_one_iff.mp (by omega)

/-! ## Plans -/

variable {l : Loading} {p : Parts}

/-- The load jobs are found among the parts of a plan by their script, if no other part calls it. -/
theorem Loading.jobs_parts (hcreate : p.create.script ≠ l.script)
    (hloads : ∀ j ∈ p.loads, j.script = l.script) (henrich : p.enrich.script ≠ l.script)
    (hindices : ∀ j ∈ p.indices, j.script ≠ l.script)
    (hclusters : ∀ j ∈ p.clusters, j.script ≠ l.script)
    (hclosing : ∀ j ∈ p.closing, j.script ≠ l.script) : l.jobs p.jobs = p.loads := by
  have hkept : p.loads.filter (·.script = l.script) = p.loads :=
    List.filter_eq_self.mpr fun j hj => by simpa using hloads j hj
  have hnone : ∀ js : List Job, (∀ j ∈ js, j.script ≠ l.script) →
      js.filter (·.script = l.script) = [] := fun js hjs =>
    List.filter_eq_nil_iff.mpr fun j hj => by simpa using hjs j hj
  have hlast : ∀ j ∈ p.closing.toList, j.script ≠ l.script := fun j hj =>
    hclosing j (Option.mem_toList.mp hj)
  simp [Loading.jobs, Parts.jobs, Parts.later, hcreate, hkept, henrich, hnone _ hindices,
    hnone _ hclusters, hnone _ hlast]

theorem script_of_mem_indexJobs {parent : String} {timeout : Option UInt64}
    {indices : List IndexSpec} {j : Job} (hj : j ∈ indexJobs b parent timeout indices) :
    j.script = "create_index.sh" := by
  obtain ⟨index, -, rfl⟩ := List.mem_map.mp hj
  simp

/-- The load jobs of a vector source are found by their script. -/
theorem Vector.jobs_parts (b : Brief) (s : VectorSource) {loaded : List Job × List String}
    (hscript : l.script = "load_vector_csv_data.sh" ∨ l.script = "load_vector_data.sh")
    (hloads : ∀ j ∈ loaded.1, j.script = l.script) :
    l.jobs (parts b s loaded).jobs = loaded.1 := by
  have hother : ∀ script ∈ ["create_vector_schema.sh", "add_gfw_fields.sh", "create_index.sh",
      "cluster_table.sh", "inherit_geostore.sh"], script ≠ l.script := by
    rcases hscript with h | h <;> rw [h] <;> decide
  refine Loading.jobs_parts (p := parts b s loaded) (hother _ ?_) hloads (hother _ ?_) ?indices
    ?clusters ?closing
  case indices =>
    intro j hj
    rw [script_of_mem_indexJobs hj]
    exact hother _ (by simp)
  case clusters =>
    intro j hj
    obtain ⟨index, -, rfl⟩ := Option.map_eq_some_iff.mp (Option.mem_toList.mp hj)
    exact hother _ (by simp [clusterJob])
  case closing =>
    intro j hj
    unfold parts at hj
    dsimp only at hj
    split at hj
    · cases hj
      exact hother _ (by simp [inheritJob])
    · cases hj
  all_goals simp [parts, createJob, enrichJob]

theorem Table.jobs_parts (b : Brief) (s : TableSource) :
    (loading s).jobs (parts b s).jobs = loadJobs b s := by
  refine Loading.jobs_parts (p := parts b s) ?create ?loads ?enrich ?indices ?clusters nofun
  case create => simp [parts, createJob, loading]
  case loads =>
    intro j hj
    obtain ⟨i, hi, rfl⟩ := List.mem_mapIdx.mp hj
    simp [loadJob, loading]
  case enrich => simp [parts, enrichJob, loading]
  case indices =>
    intro j hj
    simp [script_of_mem_indexJobs hj, loading]
  case clusters =>
    intro j hj
    unfold parts clusterJobs at hj
    dsimp only at hj
    split at hj
    · obtain ⟨suffix, -, rfl⟩ := List.mem_map.mp hj
      simp [clusterJob, loading]
    · cases hj

/-- The jobs for a source that is loaded file by file are wired parts, and the load jobs among them
divide the files. -/
theorem exists_parts_of_loading (hparents : 1 ≤ b.settings.maxParents.toNat)
    (hl : loading? options = some l) (hfiles : l.files ≠ []) :
    ∃ (p : Parts) (queues : Nat), jobs b options = .ok p.jobs ∧ p.Wired queues ∧
      Divides l b.settings.maxParents.toNat (l.jobs p.jobs) := by
  cases options
  case vectorSource s =>
    obtain ⟨hcsv, rfl⟩ : s.driver = .csv ∧ Vector.loading s = l := by simpa [loading?] using hl
    refine ⟨Vector.parts b s _, _, Vector.jobs_eq (Vector.loadJobs_of_csv hcsv hparents),
      Vector.parts_wired (Vector.chunkJobs_queued hfiles), ?_⟩
    have hloads : ∀ j ∈ Vector.chunkJobs b s, j.script = (Vector.loading s).script := by
      intro j hj
      obtain ⟨i, hi, rfl⟩ := List.mem_mapIdx.mp hj
      simp [Vector.loadChunkJob, Vector.loading]
    rw [Vector.jobs_parts b s (Or.inl rfl) hloads]
    refine divides_mapIdx hparents hfiles (fun _ _ => rfl) fun i chunk => ?_
    simp [Vector.loadChunkJob, flagValues_sourceArgs]
  case tableSource s =>
    obtain rfl : Table.loading s = l := by simpa [loading?] using hl
    refine ⟨Table.parts b s, _, Table.jobs_eq hparents, Table.parts_wired hfiles, ?_⟩
    rw [Table.jobs_parts]
    refine divides_mapIdx hparents hfiles (fun _ _ => rfl) fun i chunk => ?_
    simp [Table.loadJob, flagValues_sourceArgs_append, flagValues_tableArgs]
  all_goals cases hl

/-- The files of a source that is loaded file by file are divided among the load jobs of its plan,
which are submitted in the order of the files. -/
theorem build_divides (hparents : 1 ≤ b.settings.maxParents.toNat)
    (hoptions : b.asset.options = some options) (hl : loading? options = some l)
    (hfiles : l.files ≠ []) :
    ∃ js, jobs b options = .ok js ∧ Divides l b.settings.maxParents.toNat (l.jobs js) ∧
      ∀ g, build b = .ok g → g.jobs = js ∧ g.order = js := by
  obtain ⟨p, queues, hjobs, hw, hdivides⟩ := exists_parts_of_loading hparents hl hfiles
  refine ⟨p.jobs, hjobs, hdivides, fun g hg => ?_⟩
  obtain ⟨js, hjs, hof⟩ := ofJobs_of_build hoptions hg
  obtain rfl : p.jobs = js := Except.ok.inj (hjobs.symm.trans hjs)
  obtain ⟨g', hg', hall, horder⟩ := hw.exists_graph (JobGraph.listed_of_ofJobs hof).1
  obtain rfl : g = g' := Except.ok.inj (hof.symm.trans hg')
  exact ⟨hall, horder⟩

namespace Sample

/-- Seven files of a table without headers. -/
def parcels : TableSource where
  files := ["a.csv", "b.csv", "c.csv", "d.csv", "e.csv", "f.csv", "g.csv"]
  hasHeader := false

end Sample

open Sample in
set_option maxRecDepth 100000 in
/-- Under a limit of three parents, two jobs load three files each, and a third one the last
file. -/
theorem parcels_divides : ∃ g, build (brief (.tableSource parcels)) = .ok g ∧
    Divides (Table.loading parcels) 3 ((Table.loading parcels).jobs g.order) ∧
    ((Table.loading parcels).jobs g.order).map (·.sources) =
      [["a.csv", "b.csv", "c.csv"], ["d.csv", "e.csv", "f.csv"], ["g.csv"]] := by
  obtain ⟨g, hg⟩ : ∃ g, build (brief (.tableSource parcels)) = .ok g := by
    refine (exists_build_iff (by decide) (by decide) (by decide) rfl rfl (Or.inr ⟨_, rfl⟩)).mpr ?_
    exact ⟨by decide, by decide, by decide⟩
  obtain ⟨js, hjs, hdivides, hplan⟩ := build_divides (b := brief (.tableSource parcels))
    (l := Table.loading parcels) (by decide) rfl rfl (by decide)
  obtain ⟨-, horder⟩ := hplan g hg
  obtain rfl : (Table.parts (brief (.tableSource parcels)) parcels).jobs = js :=
    Except.ok.inj ((Table.jobs_eq (by decide)).symm.trans hjs)
  refine ⟨g, hg, horder ▸ hdivides, ?_⟩
  rw [horder, Table.jobs_parts]
  decide +kernel

end Plan

end GeoAssets
