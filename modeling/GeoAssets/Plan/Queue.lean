import GeoAssets.Compute.Job

/-!
# Load queues

Jobs that load layers are lined up in a limited number of queues: the jobs go to the queues in turn,
and in a queue each job waits for the one before it. So what follows all of them has to wait for the
last job of each queue only.
-/

namespace GeoAssets.Plan

/-- Lines up jobs in queues of which the last jobs are given, `none` for an empty queue; the first
job goes to the queue at `slot`, and a job that is the first of its queue waits for `root`. -/
def lineUp (root : String) : Nat → List (Option String) → List Job → List Job × List (Option String)
  | _, tails, [] => ([], tails)
  | slot, tails, j :: rest =>
    let parent := (tails.getD slot none).getD root
    let lined := lineUp root ((slot + 1) % tails.length) (tails.set slot (some j.name)) rest
    (j.withParents [parent] :: lined.1, lined.2)

/-- The number of queues that are used for a number of jobs. -/
def queueCount (queues jobs : Nat) : Nat :=
  min (max queues 1) (max jobs 1)

/-- Lines up jobs in queues that start at `root`. Gives the jobs with their parents, and the names
of the last jobs of the queues. -/
def inQueues (root : String) (queues : Nat) (jobs : List Job) : List Job × List String :=
  let lined := lineUp root 0 (List.replicate (queueCount queues jobs.length) none) jobs
  (lined.1, lined.2.filterMap id)

/-- Lining up changes nothing but parents. -/
theorem map_lineUp {α : Type} {f : Job → α} (hf : ∀ j parents, f (j.withParents parents) = f j)
    (root : String) (slot : Nat) (tails : List (Option String)) (jobs : List Job) :
    (lineUp root slot tails jobs).1.map f = jobs.map f := by
  induction jobs generalizing slot tails with
  | nil => rfl
  | cons j rest ih => simp [lineUp, ih, hf]

theorem map_name_lineUp (root : String) (slot : Nat) (tails : List (Option String))
    (jobs : List Job) : (lineUp root slot tails jobs).1.map (·.name) = jobs.map (·.name) :=
  map_lineUp (fun _ _ => rfl) root slot tails jobs

end GeoAssets.Plan
