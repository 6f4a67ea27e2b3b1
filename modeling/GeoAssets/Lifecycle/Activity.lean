import GeoAssets.Lifecycle.Settlement
import GeoAssets.Lifecycle.Teardown
import GeoAssets.Compute.Graph

/-!
# Activities

What the orchestrator does about assets takes several steps: it submits one job after the other,
sets the number of tasks, and looks whether they decide over the asset; it records a report and
settles the asset; it registers a tile cache; it takes teardown actions. An `Activity` says where
such work stands, so that the steps of several activities can be taken in any order.
-/

namespace GeoAssets

/-! ## What activities lead to -/

/-- What an activity gives at its end. -/
inductive Answer where
  | done
  /-- The asset that was settled, if one was. -/
  | settled (settled : Option Settled)
  /-- The ids of the jobs that were submitted. -/
  | submitted (ids : Directory String TaskId)
  /-- The task that was reported. -/
  | task (task : Task)
  deriving Repr

/-- What follows once an asset was looked after. -/
inductive Goal where
  /-- Nothing; the asset is given if it was settled. -/
  | settlement
  /-- The tile cache of the asset is registered if one is due. -/
  | pipeline
  /-- Nothing; the answer is known, whether or not the work succeeds. -/
  | answer (answer : Answer)
  deriving Repr

/-! ## Activities -/

/-- Work on an asset. -/
inductive Activity where
  /-- Submits jobs, given the ids of those submitted before. If there is a goal the tasks are
  counted afterwards. -/
  | submit (asset : Asset) (jobs : List Job) (ids : Directory String TaskId) (goal : Option Goal)
  /-- Settles an asset with a job that could not be submitted. -/
  | abandon (asset : Asset) (job : String) (cause : Error)
  /-- Sets the number of tasks. -/
  | expect (asset : Asset) (count : UInt32) (goal : Goal)
  /-- Looks whether the tasks of an asset decide over it. -/
  | evaluate (asset : AssetId) (goal : Goal)
  /-- Decides over an asset that takes no jobs. -/
  | inspect (asset : Asset) (goal : Goal)
  /-- Settles an asset. -/
  | settle (asset : Asset) (outcome : Outcome) (goal : Goal)
  /-- Takes a report of a task. -/
  | receive (task : TaskId) (entry : LogEntry)
  /-- Records a report of a task, whose asset was looked up before, and looks whether the tasks of
  the asset decide over it. -/
  | record (asset : AssetId) (task : TaskId) (entry : LogEntry)
  /-- Registers the dynamic tile cache of a table. -/
  | register (table : Asset) (goal : Goal)
  /-- Takes teardown actions, given the first error of those taken before. -/
  | tearDown (actions : List TeardownAction) (error? : Option Error)
  deriving Repr

/-- How an activity goes on after a step. -/
inductive Next where
  | goOn (rest : Activity)
  | finished (answer : Answer)
  deriving Repr

namespace Activity

/-- The pipeline of an asset. An asset that takes no jobs is decided over at once. -/
def ofGraph (asset : Asset) (graph : JobGraph) (goal : Goal) : Activity :=
  if graph.isEmpty then .inspect asset goal else .submit asset graph.order {} (some goal)

/-- The asset whose lock the next step needs. -/
def lock? : Activity → Option AssetId
  | .abandon asset .. | .settle asset .. => some asset.id
  | .evaluate asset _ | .record asset .. => some asset
  | .submit .. | .expect .. | .inspect .. | .receive .. | .register .. | .tearDown .. => none

/-- The answer that an activity gives even if it fails. -/
def knownAnswer? : Activity → Option Answer
  | .submit _ _ _ (some (.answer a)) | .expect _ _ (.answer a) | .evaluate _ (.answer a)
  | .inspect _ (.answer a) | .settle _ _ (.answer a) | .register _ (.answer a) => some a
  | _ => none

end Activity

/-! ## How activities go on -/

namespace Next

/-- How an activity goes on once an asset was looked after. -/
def follow : Goal → Option Settled → Next
  | .settlement, settled => .finished (.settled settled)
  | .pipeline, some ⟨table, true⟩ => .goOn (.register table (.answer .done))
  | .pipeline, _ => .finished .done
  | .answer a, _ => .finished a

/-- How a report goes on once it was recorded. -/
def afterReport (t : Task) : Option Settled → Next
  | some ⟨table, true⟩ => .goOn (.register table (.answer (.task t)))
  | _ => .finished (.task t)

end Next

/-! ## How long activities take -/

namespace Activity

/-- How many steps are left after an asset was looked after, at most. -/
def goalRank : Goal → Nat
  | .pipeline => 3
  | .settlement | .answer _ => 0

/-- How many steps are left, at most. -/
def rank : Activity → Nat
  | .abandon .. => 1
  | .evaluate _ goal | .settle _ _ goal => 1 + goalRank goal
  | .expect _ _ goal | .inspect _ goal => 2 + goalRank goal
  | .register _ goal => 3 + goalRank goal
  | .submit _ jobs _ goal => jobs.length + 3 + (goal.map goalRank).getD 0
  | .record .. => 4
  | .receive .. => 5
  | .tearDown actions _ => actions.length + 1

end Activity

/-- How many steps are left, at most. -/
def Next.rank : Next → Nat
  | .goOn rest => rest.rank
  | .finished _ => 0

theorem Next.rank_follow_le (goal : Goal) (s : Option Settled) :
    (Next.follow goal s).rank ≤ Activity.goalRank goal := by
  unfold Next.follow
  split <;> simp [Next.rank, Activity.rank, Activity.goalRank]

theorem Next.rank_afterReport_le (t : Task) (s : Option Settled) :
    (Next.afterReport t s).rank ≤ 3 := by
  unfold Next.afterReport
  split <;> simp [Next.rank, Activity.rank, Activity.goalRank]

end GeoAssets
