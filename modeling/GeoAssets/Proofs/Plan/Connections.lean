import GeoAssets.Proofs.Compute.ChangedJobs
import GeoAssets.Proofs.Plan.Accepted

/-!
# Which jobs know which connection

Jobs that only read connect to the database as a reader, all others as a writer, and nothing else in
a plan depends on the two connections: with other connections the plan is the same plan, but for the
environments of its jobs (`Plan.build_withConnections`).
-/

namespace GeoAssets

namespace Plan

variable {b : Brief} {writer reader : Connection}

/-- The brief with other connections. -/
def Brief.withConnections (b : Brief) (writer reader : Connection) : Brief :=
  { b with settings := { b.settings with writer, reader } }

/-- A job in the environment that jobs of its kind have under other connections. -/
def Brief.reconnected (b : Brief) (writer reader : Connection) (j : Job) : Job :=
  { j with environment := (b.withConnections writer reader).environment j.kind }

namespace Brief

@[simp] theorem asset_withConnections : (b.withConnections writer reader).asset = b.asset :=
  rfl

@[simp] theorem maxParents_withConnections :
    (b.withConnections writer reader).settings.maxParents = b.settings.maxParents :=
  rfl

theorem withConnections_self : b.withConnections b.settings.writer b.settings.reader = b :=
  rfl

@[simp] theorem name_reconnected (j : Job) : (b.reconnected writer reader j).name = j.name :=
  rfl

end Brief

/-- The fields of an export do not depend on connections. -/
theorem exportedFields_withConnections (requested : Option (List String)) :
    exportedFields (b.withConnections writer reader) requested = exportedFields b requested :=
  rfl

theorem Brief.reconnected_keepsLinks (b : Brief) (writer reader : Connection) :
    Job.KeepsLinks (b.reconnected writer reader) where
  name _ := rfl
  parents _ := rfl

theorem names_reconnected (b : Brief) (writer reader : Connection) (jobs : List Job) :
    names (jobs.map (b.reconnected writer reader)) = names jobs :=
  (b.reconnected_keepsLinks writer reader).map_name jobs

theorem namesOr_reconnected (b : Brief) (writer reader : Connection) (fallback : String)
    (jobs : List Job) :
    namesOr fallback (jobs.map (b.reconnected writer reader)) = namesOr fallback jobs := by
  rw [namesOr, namesOr, names_reconnected, List.isEmpty_map]

theorem indexJobs_withConnections (b : Brief) (writer reader : Connection) (parent : String)
    (timeout : Option UInt64) (indices : List IndexSpec) :
    indexJobs (b.withConnections writer reader) parent timeout indices =
      (indexJobs b parent timeout indices).map (b.reconnected writer reader) := by
  unfold indexJobs
  rw [List.map_map]
  rfl

/-- Jobs that are lined up under other connections. -/
theorem lineUp_reconnected (root : String) (slot : Nat) (tails : List (Option String))
    (jobs : List Job) :
    lineUp root slot tails (jobs.map (b.reconnected writer reader)) =
      ((lineUp root slot tails jobs).1.map (b.reconnected writer reader),
        (lineUp root slot tails jobs).2) := by
  induction jobs generalizing slot tails with
  | nil => rfl
  | cons j rest ih =>
    rw [List.map_cons, lineUp, lineUp]
    dsimp only
    rw [Brief.name_reconnected, ih]
    rfl

theorem inQueues_reconnected (root : String) (queues : Nat) (jobs : List Job) :
    inQueues root queues (jobs.map (b.reconnected writer reader)) =
      ((inQueues root queues jobs).1.map (b.reconnected writer reader),
        (inQueues root queues jobs).2) := by
  unfold inQueues
  rw [List.length_map, lineUp_reconnected]

/-- Numbered jobs are the same jobs under other connections, if each of them is. -/
theorem mapIdx_reconnected {α : Type} {load load' : Nat → α → Job}
    (h : ∀ i x, load' i x = b.reconnected writer reader (load i x)) (items : List α) :
    items.mapIdx load' = (items.mapIdx load).map (b.reconnected writer reader) :=
  List.ext_getElem (by simp) fun i _ _ => by simp [h]

/-! ## Templates -/

namespace Vector

theorem loadJobs_withConnections (b : Brief) (writer reader : Connection) (s : VectorSource) :
    loadJobs (b.withConnections writer reader) s = (loadJobs b s).map fun loaded =>
      (loaded.1.map (b.reconnected writer reader), loaded.2) := by
  by_cases hcsv : s.driver = .csv
  · have hchunks : ∀ size,
        (chunks size s.files).mapIdx (loadChunkJob (b.withConnections writer reader) s) =
          ((chunks size s.files).mapIdx (loadChunkJob b s)).map (b.reconnected writer reader) := by
      intro size
      refine mapIdx_reconnected (fun _ _ => ?_) _
      rfl
    unfold loadJobs
    rw [hcsv]
    dsimp only
    rw [Brief.maxParents_withConnections]
    cases filesPerJob s.files.length b.settings.maxParents with
    | error e => rfl
    | ok size =>
      simp only [bind, Except.bind, pure, Except.pure, Except.map, hchunks, names_reconnected]
  · have hlayers : s.resolvedLayers.mapIdx (loadLayerJob (b.withConnections writer reader) s) =
        (s.resolvedLayers.mapIdx (loadLayerJob b s)).map (b.reconnected writer reader) := by
      refine mapIdx_reconnected (fun _ _ => ?_) _
      rfl
    rw [loadJobs_of_layers hcsv, loadJobs_of_layers hcsv, hlayers, inQueues_reconnected]
    rfl

theorem jobs_withConnections (b : Brief) (writer reader : Connection) (s : VectorSource) :
    jobs (b.withConnections writer reader) s =
      (jobs b s).map (List.map (b.reconnected writer reader)) := by
  have hcreate : [createJob (b.withConnections writer reader) s] =
      [createJob b s].map (b.reconnected writer reader) := rfl
  have henrich : ∀ parents, [enrichJob (b.withConnections writer reader) s parents] =
      [enrichJob b s parents].map (b.reconnected writer reader) := fun _ => rfl
  have hname : ∀ parents, (enrichJob (b.withConnections writer reader) s parents).name =
      (enrichJob b s parents).name := fun _ => rfl
  have hcluster : ∀ parents,
      (s.cluster.map (clusterJob (b.withConnections writer reader) s parents)).toList =
        (s.cluster.map (clusterJob b s parents)).toList.map (b.reconnected writer reader) := by
    intro parents
    cases s.cluster <;> rfl
  have hinherit : ∀ parents,
      (if s.addToGeostore then [inheritJob (b.withConnections writer reader) s parents] else []) =
        (if s.addToGeostore then [inheritJob b s parents] else []).map
          (b.reconnected writer reader) := by
    intro parents
    cases s.addToGeostore <;> rfl
  unfold jobs
  rw [loadJobs_withConnections]
  cases loadJobs b s with
  | error e => rfl
  | ok loaded =>
    simp only [bind, Except.bind, pure, Except.pure, Except.map, hcreate, henrich, hname, hcluster,
      hinherit, indexJobs_withConnections, namesOr_reconnected, ← List.map_append]

end Vector

namespace Table

theorem jobs_withConnections (b : Brief) (writer reader : Connection) (s : TableSource) :
    jobs (b.withConnections writer reader) s =
      (jobs b s).map (List.map (b.reconnected writer reader)) := by
  have hcreate : [createJob (b.withConnections writer reader) s] =
      [createJob b s].map (b.reconnected writer reader) := rfl
  have hloads : ∀ size,
      (chunks size s.files).mapIdx (loadJob (b.withConnections writer reader) s) =
        ((chunks size s.files).mapIdx (loadJob b s)).map (b.reconnected writer reader) := by
    intro size
    refine mapIdx_reconnected (fun _ _ => ?_) _
    rfl
  have henrich : ∀ parents, [enrichJob (b.withConnections writer reader) s parents] =
      [enrichJob b s parents].map (b.reconnected writer reader) := fun _ => rfl
  have hname : ∀ parents, (enrichJob (b.withConnections writer reader) s parents).name =
      (enrichJob b s parents).name := fun _ => rfl
  have hclusters : ∀ parents, clusterJobs (b.withConnections writer reader) s parents =
      (clusterJobs b s parents).map (b.reconnected writer reader) := by
    intro parents
    unfold clusterJobs
    cases s.partitions with
    | none => rfl
    | some p =>
      dsimp only
      rw [List.map_map]
      rfl
  unfold jobs
  rw [Brief.maxParents_withConnections]
  cases filesPerJob s.files.length b.settings.maxParents with
  | error e => rfl
  | ok size =>
    simp only [bind, Except.bind, pure, Except.pure, Except.map, hcreate, hloads, henrich, hname,
      hclusters, names_reconnected, indexJobs_withConnections, namesOr_reconnected,
      ← List.map_append]

end Table

theorem staticTileJobs_withConnections (b : Brief) (writer reader : Connection) (t : StaticTiles) :
    staticTileJobs (b.withConnections writer reader) t =
      (staticTileJobs b t).map (List.map (b.reconnected writer reader)) := by
  unfold staticTileJobs
  rw [exportedFields_withConnections]
  cases exportedFields b t.fields <;> rfl

theorem fileJobs_withConnections (b : Brief) (writer reader : Connection) (f : VectorFile) :
    fileJobs (b.withConnections writer reader) f =
      (fileJobs b f).map (List.map (b.reconnected writer reader)) := by
  unfold fileJobs
  rw [exportedFields_withConnections, Brief.asset_withConnections]
  cases fileFormat? b.asset.type with
  | none => rfl
  | some format => cases exportedFields b f.fields <;> rfl

/-- The jobs for any options are the same under other connections, but for their environments. -/
theorem jobs_withConnections (b : Brief) (writer reader : Connection) (options : CreationOptions) :
    jobs (b.withConnections writer reader) options =
      (jobs b options).map (List.map (b.reconnected writer reader)) := by
  cases options with
  | vectorSource s => exact Vector.jobs_withConnections b writer reader s
  | tableSource s => exact Table.jobs_withConnections b writer reader s
  | staticTiles t => exact staticTileJobs_withConnections b writer reader t
  | vectorFile f => exact fileJobs_withConnections b writer reader f
  | dynamicTiles _ | rasterSource _ | rasterTileSet _ | rasterTiles _ => rfl

/-! ## Plans -/

theorem checkFanIn_reconnected (b : Brief) (writer reader : Connection) (g : JobGraph) :
    checkFanIn (b.withConnections writer reader).settings
      (g.map (b.reconnected writer reader) (b.reconnected_keepsLinks writer reader)) =
        checkFanIn b.settings g := by
  unfold checkFanIn
  rw [JobGraph.maxFanIn_map]
  rfl

/-- With other connections a plan is the same plan in other environments, or is refused for the same
reason. -/
theorem build_withConnections (b : Brief) (writer reader : Connection) :
    build (b.withConnections writer reader) = (build b).map fun g =>
      g.map (b.reconnected writer reader) (b.reconnected_keepsLinks writer reader) := by
  unfold build
  rw [Brief.asset_withConnections]
  cases b.asset.options with
  | none => rfl
  | some options =>
    simp only [orElseFail, bind, Except.bind]
    rw [jobs_withConnections]
    cases options.validate with
    | error e => rfl
    | ok valid =>
      cases require (options.fits b.asset.type) (Location.misfit options b.asset.type) with
      | error e => rfl
      | ok fits =>
        cases jobs b options with
        | error e => rfl
        | ok js =>
          dsimp only [Except.map]
          rw [JobGraph.ofJobs_map (b.reconnected_keepsLinks writer reader)]
          cases JobGraph.ofJobs js with
          | error e => rfl
          | ok g =>
            dsimp only [Except.map]
            rw [checkFanIn_reconnected]
            cases checkFanIn b.settings g <;> rfl

/-! ## Environments -/

/-- The environment of every job of a plan is the one for its kind. -/
theorem environment_of_build {g : JobGraph} (hg : build b = .ok g) {j : Job} (hj : j ∈ g.jobs) :
    j.environment = b.environment j.kind := by
  have hsame := build_withConnections b b.settings.writer b.settings.reader
  rw [Brief.withConnections_self, hg] at hsame
  have hjobs : g.jobs = g.jobs.map (b.reconnected b.settings.writer b.settings.reader) :=
    congrArg JobGraph.jobs (Except.ok.inj hsame)
  rw [eq_comm, ← List.map_id' g.jobs, List.map_map, List.map_inj_left] at hjobs
  exact (congrArg Job.environment (hjobs j hj)).symm

end Plan

/-- The kinds of jobs that only read what others have written: exports and tile caches. -/
def JobKind.Exports (kind : JobKind) : Prop :=
  kind = .gdalExport ∨ kind = .tileCache

theorem JobKind.readsOnly_iff {kind : JobKind} : kind.readsOnly = true ↔ kind.Exports := by
  cases kind <;> simp [readsOnly, Exports]

/-- A job is another one but for its environment, and in the same environment if its kind is one of
some. -/
structure Job.Agrees (kinds : JobKind → Prop) (j j' : Job) : Prop where
  same : j' = { j with environment := j'.environment }
  environment : kinds j.kind → j'.environment = j.environment

/-- The jobs of two graphs are the same one by one, also in the order of submission, but for the
environments of jobs that are not of some kinds. -/
structure JobGraph.Agrees (kinds : JobKind → Prop) (g g' : JobGraph) : Prop where
  jobs : List.Forall₂ (Job.Agrees kinds) g.jobs g'.jobs
  order : List.Forall₂ (Job.Agrees kinds) g.order g'.order

namespace Plan

/-- The connections are kept apart in the plan for a brief. -/
structure SeparatesConnections (b : Brief) (g : JobGraph) : Prop where
  /-- Exports and tile caches connect as readers only, all other jobs as writers. -/
  connects : ∀ j ∈ g.jobs,
    (j.kind.Exports → b.settings.reader.environment <+: j.environment) ∧
      (¬ j.kind.Exports → b.settings.writer.environment <+: j.environment)
  /-- Another writer changes nothing but the environments of the other jobs. -/
  writer : ∀ writer, ∃ g', build (b.withConnections writer b.settings.reader) = .ok g' ∧
    g.Agrees JobKind.Exports g'
  /-- Another reader changes nothing but the environments of exports and tile caches. -/
  reader : ∀ reader, ∃ g', build (b.withConnections b.settings.writer reader) = .ok g' ∧
    g.Agrees (¬ JobKind.Exports ·) g'
  /-- No command depends on a connection. -/
  commands : ∀ writer reader, ∃ g', build (b.withConnections writer reader) = .ok g' ∧
    g'.jobs.map (·.command) = g.jobs.map (·.command)

variable {g : JobGraph}

/-- The plan under other connections agrees with the plan on all kinds of jobs that connect as they
did before. -/
theorem agrees_of_build (hg : build b = .ok g) (writer reader : Connection)
    {kinds : JobKind → Prop} (hkinds : ∀ kind, kinds kind →
      (b.withConnections writer reader).connection kind = b.connection kind) :
    ∃ g', build (b.withConnections writer reader) = .ok g' ∧ g.Agrees kinds g' := by
  have hagrees : ∀ j ∈ g.jobs, Job.Agrees kinds j (b.reconnected writer reader j) := by
    intro j hj
    refine ⟨rfl, fun hkind => ?_⟩
    rw [environment_of_build hg hj]
    unfold Brief.reconnected Brief.environment
    rw [hkinds j.kind hkind]
    rfl
  refine ⟨_, (build_withConnections b writer reader).trans (congrArg _ hg), ?_⟩
  constructor
  case jobs => exact List.forall₂_map_right_iff.mpr (List.forall₂_same.mpr hagrees)
  case order =>
    refine List.forall₂_map_right_iff.mpr (List.forall₂_same.mpr fun j hj => ?_)
    exact hagrees j (g.order_perm.subset hj)

/-- In every accepted plan, exports and tile caches know the reader only and all other jobs the
writer only, and nothing but the environments depends on who these are. -/
theorem build_separatesConnections (hg : build b = .ok g) : SeparatesConnections b g := by
  constructor
  case connects =>
    intro j hj
    rw [environment_of_build hg hj, ← JobKind.readsOnly_iff]
    unfold Brief.environment Brief.connection
    constructor
    · intro h
      rw [if_pos h]
      exact List.prefix_append _ _
    · intro h
      rw [if_neg h]
      exact List.prefix_append _ _
  case writer =>
    refine fun writer => agrees_of_build hg writer _ fun kind hkind => ?_
    rw [← JobKind.readsOnly_iff] at hkind
    rw [Brief.connection, Brief.connection, if_pos hkind, if_pos hkind]
    rfl
  case reader =>
    refine fun reader => agrees_of_build hg _ reader fun kind hkind => ?_
    rw [← JobKind.readsOnly_iff] at hkind
    rw [Brief.connection, Brief.connection, if_neg hkind, if_neg hkind]
    rfl
  case commands =>
    intro writer reader
    refine ⟨_, (build_withConnections b writer reader).trans (congrArg _ hg), ?_⟩
    exact List.map_map

namespace Sample

/-- A brief for tiles that show one field. -/
def rendered : Brief :=
  ⟨settings, .create ⟨⟨0⟩⟩ ⟨"d", "v"⟩ .staticVectorTileCache "" (.staticTiles {}) ⟨0, 0⟩,
    [.ofColumn ⟨"name", "text"⟩]⟩

end Sample

set_option maxRecDepth 100000 in
/-- A plan of which all jobs write, and one of which all jobs export. -/
theorem layers_separatesConnections :
    (∃ g, build (Sample.brief (.vectorSource Sample.layers)) = .ok g ∧
      SeparatesConnections (Sample.brief (.vectorSource Sample.layers)) g) ∧
    ∃ g, build Sample.rendered = .ok g ∧ g.jobs.map (·.kind) = [.gdalExport, .tileCache] ∧
      SeparatesConnections Sample.rendered g := by
  constructor
  · obtain ⟨g, hg⟩ : ∃ g, build (Sample.brief (.vectorSource Sample.layers)) = .ok g := by
      refine (exists_build_iff (by decide) (by decide) (by decide) rfl rfl
        (Or.inl ⟨_, rfl⟩)).mpr ?_
      exact ⟨by decide, by decide, by decide⟩
    exact ⟨g, hg, build_separatesConnections hg⟩
  · obtain ⟨g, hg, hkinds⟩ : ∃ g, build Sample.rendered = .ok g ∧
        g.jobs.map (·.kind) = [.gdalExport, .tileCache] :=
      exists_ok_of_map_toOption (by decide +kernel)
    exact ⟨g, hg, hkinds, build_separatesConnections hg⟩

end Plan

end GeoAssets
