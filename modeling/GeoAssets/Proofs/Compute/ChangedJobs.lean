import GeoAssets.Proofs.Compute.Graph

/-!
# Graphs of other jobs

Only the names and the parents of jobs decide whether they make a graph, and in which order they are
submitted. So a change of jobs that keeps these can be made before a graph is built or afterwards
(`JobGraph.ofJobs_map`).
-/

namespace GeoAssets

/-- A change of jobs that keeps their names and their parents. -/
structure Job.KeepsLinks (f : Job → Job) : Prop where
  name : ∀ j, (f j).name = j.name
  parents : ∀ j, (f j).parents = j.parents

variable {f : Job → Job}

namespace Job.KeepsLinks

theorem map_name (hf : KeepsLinks f) (jobs : List Job) :
    (jobs.map f).map (·.name) = jobs.map (·.name) := by
  rw [List.map_map]
  exact List.map_congr_left fun j _ => hf.name j

end Job.KeepsLinks

namespace WaitingJob

/-- A waiting job after a change. -/
def change (f : Job → Job) (w : WaitingJob) : WaitingJob :=
  { w with job := f w.job }

theorem map_job_change (waiting : List WaitingJob) :
    (waiting.map (change f)).map (·.job) = (waiting.map (·.job)).map f := by
  rw [List.map_map, List.map_map]
  rfl

theorem map_release_change (done : String) (waiting : List WaitingJob) :
    (waiting.map (change f)).map (·.release done) =
      (waiting.map (·.release done)).map (change f) := by
  rw [List.map_map, List.map_map]
  rfl

/-- A change does not free a job. -/
theorem filter_isFree_change (waiting : List WaitingJob) :
    (waiting.map (change f)).filter (·.isFree) = (waiting.filter (·.isFree)).map (change f) :=
  List.filter_map

theorem filter_not_isFree_change (waiting : List WaitingJob) :
    (waiting.map (change f)).filter (!·.isFree) = (waiting.filter (!·.isFree)).map (change f) :=
  List.filter_map

theorem freedBy_change (done : String) (waiting : List WaitingJob) :
    freedBy done (waiting.map (change f)) = (freedBy done waiting).map f := by
  rw [freedBy, map_release_change, filter_isFree_change, map_job_change, freedBy]

theorem keptBy_change (done : String) (waiting : List WaitingJob) :
    keptBy done (waiting.map (change f)) = (keptBy done waiting).map (change f) := by
  rw [keptBy, map_release_change, filter_not_isFree_change, keptBy]

end WaitingJob

namespace LinkTable

theorem filePlaces_map (hf : Job.KeepsLinks f) (places : Directory String Nat) (i : Nat)
    (jobs : List Job) : filePlaces places i (jobs.map f) = filePlaces places i jobs := by
  induction jobs generalizing places i with
  | nil => rfl
  | cons j rest ih => rw [List.map_cons, filePlaces, filePlaces, hf.name, ih]

theorem linksFrom_map (hf : Job.KeepsLinks f) (places : Directory String Nat) (i : Nat)
    (jobs : List Job) : linksFrom places i (jobs.map f) = linksFrom places i jobs := by
  induction jobs generalizing i with
  | nil => rfl
  | cons j rest ih =>
    rw [List.map_cons, linksFrom, linksFrom, ih, parentPlaces, parentPlaces, hf.parents]

theorem ofJobs_map (hf : Job.KeepsLinks f) (jobs : List Job) :
    ofJobs (jobs.map f) = ofJobs jobs := by
  unfold ofJobs
  dsimp only
  rw [filePlaces_map hf, linksFrom_map hf]

end LinkTable

namespace JobGraph

/-- Changed jobs are taken as the jobs themselves are. -/
theorem takeFree_map (hf : Job.KeepsLinks f) (line : List Job) (waiting : List WaitingJob) :
    takeFree (line.map f) (waiting.map (WaitingJob.change f)) =
      ((takeFree line waiting).1.map f, (takeFree line waiting).2.map (WaitingJob.change f)) := by
  induction line, waiting using takeFree.induct with
  | case1 waiting =>
    rw [List.map_nil, takeFree, takeFree, List.map_nil]
  | case2 j line waiting ih =>
    rw [List.map_cons, takeFree, takeFree, hf.name, WaitingJob.freedBy_change,
      WaitingJob.keptBy_change, ← List.map_append, ih]
    rfl

theorem arrange_map (hf : Job.KeepsLinks f) (jobs : List Job) :
    arrange (jobs.map f) =
      ((arrange jobs).1.map f, (arrange jobs).2.map (WaitingJob.change f)) := by
  have hall : ((jobs.map f).map fun j => (⟨j, j.parents⟩ : WaitingJob)) =
      (jobs.map fun j => (⟨j, j.parents⟩ : WaitingJob)).map (WaitingJob.change f) := by
    rw [List.map_map, List.map_map]
    exact List.map_congr_left fun j _ => congrArg (WaitingJob.mk (f j)) (hf.parents j)
  unfold arrange
  dsimp only
  rw [hall, WaitingJob.filter_isFree_change, WaitingJob.map_job_change,
    WaitingJob.filter_not_isFree_change, takeFree_map hf]

theorem firstUnknownParent?_map (hf : Job.KeepsLinks f) (jobs : List Job) :
    firstUnknownParent? (jobs.map f) = firstUnknownParent? jobs := by
  unfold firstUnknownParent?
  dsimp only
  rw [hf.map_name, List.findSome?_map]
  congr 1
  funext j
  rw [Function.comp_apply, hf.parents, hf.name]

/-- The graph of changed jobs. -/
def map (g : JobGraph) (f : Job → Job) (hf : Job.KeepsLinks f) : JobGraph where
  jobs := g.jobs.map f
  order := g.order.map f
  arranged := by rw [arrange_map hf, g.arranged, List.map_nil]

/-- Changed jobs are linked as the jobs themselves are. -/
theorem table_map (g : JobGraph) (hf : Job.KeepsLinks f) : (g.map f hf).table = g.table :=
  LinkTable.ofJobs_map hf g.jobs

theorem maxFanIn_map (g : JobGraph) (hf : Job.KeepsLinks f) :
    (g.map f hf).maxFanIn = g.maxFanIn := by
  have hsize : (g.map f hf).size = g.size := List.length_map f
  unfold maxFanIn
  rw [table_map, hsize]

/-- Changed jobs make the graph of the jobs with the same change, and are refused for the same
reason. -/
theorem ofJobs_map (hf : Job.KeepsLinks f) (jobs : List Job) :
    ofJobs (jobs.map f) = (ofJobs jobs).map (·.map f hf) := by
  unfold ofJobs
  rw [hf.map_name, firstUnknownParent?_map hf]
  cases firstRepeated? [] (jobs.map (·.name)) with
  | some n => rfl
  | none =>
    cases firstUnknownParent? jobs with
    | some unknown => rfl
    | none =>
      -- the same jobs are left over
      have hleft : (arrange (jobs.map f)).2 = (arrange jobs).2.map (WaitingJob.change f) :=
        congrArg Prod.snd (arrange_map hf jobs)
      dsimp only
      split
      · next order h =>
        rw [h, eq_comm, List.map_eq_nil_iff] at hleft
        split
        · next order' h' =>
          have horder : order = order'.map f := by
            simpa [h, h'] using congrArg Prod.fst (arrange_map hf jobs)
          subst horder
          rfl
        · next hstuck h' => exact (hstuck (by rw [← hleft, h'])).elim
      · next hstuck h =>
        split
        · next h' =>
          rw [h, h', List.map_nil] at hleft
          exact (hstuck hleft).elim
        · next stuck' _ h' =>
          rw [h, h'] at hleft
          dsimp only at hleft
          subst hleft
          have hnames : (stuck'.map (WaitingJob.change f)).map (·.job.name) =
              stuck'.map (·.job.name) := by
            rw [List.map_map]
            exact List.map_congr_left fun w _ => hf.name w.job
          exact congrArg (Except.error ∘ Error.cycle) hnames

end JobGraph

end GeoAssets
