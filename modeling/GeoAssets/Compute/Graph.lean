import GeoAssets.Compute.Links
import GeoAssets.Error

/-!
# Job graphs

The jobs of one pipeline with the order in which they are submitted. A graph is made from a list of
jobs if the names are distinct, every parent is a job of the list, and no job waits for itself, not
even through others (`JobGraph.ofJobs`).

The order is found by removing, one after the other, the jobs that have become free: a job is free
once all its parents have been removed, and free jobs wait in line. Jobs that become free together
line up in the order of the list.

What stands next to a job is read off the links between the jobs.
-/

namespace GeoAssets

/-! ## Lining up -/

/-- A job that is not free, with the parents that it still waits for. -/
structure WaitingJob where
  job : Job
  missing : List String
  deriving DecidableEq, Repr

namespace WaitingJob

/-- The job once another has been removed. -/
def release (done : String) (w : WaitingJob) : WaitingJob :=
  { w with missing := w.missing.filter (· ≠ done) }

/-- Decides whether nothing keeps the job waiting. -/
def isFree (w : WaitingJob) : Bool :=
  w.missing.isEmpty

/-- The waiting jobs that are free once another job has been removed. -/
def freedBy (done : String) (waiting : List WaitingJob) : List Job :=
  ((waiting.map (·.release done)).filter (·.isFree)).map (·.job)

/-- The waiting jobs that are not free once another job has been removed. -/
def keptBy (done : String) (waiting : List WaitingJob) : List WaitingJob :=
  (waiting.map (·.release done)).filter (!·.isFree)

theorem length_filter_add (ws : List WaitingJob) :
    (ws.filter (·.isFree)).length + (ws.filter (!·.isFree)).length = ws.length := by
  induction ws with
  | nil => rfl
  | cons w ws ih =>
    cases h : w.isFree <;> simp only [List.filter_cons, h, List.length_cons] <;> simp <;> omega

/-- No waiting job gets lost. -/
theorem length_freedBy_add (done : String) (waiting : List WaitingJob) :
    (freedBy done waiting).length + (keptBy done waiting).length = waiting.length := by
  simp only [freedBy, keptBy, List.length_map]
  rw [length_filter_add, List.length_map]

end WaitingJob

namespace JobGraph

/-- Takes the free jobs in line, each followed in line by those that it sets free. Gives the jobs in
the order in which they were taken, and those that were never free. -/
def takeFree : List Job → List WaitingJob → List Job × List WaitingJob
  | [], waiting => ([], waiting)
  | j :: line, waiting =>
    let rest := takeFree (line ++ WaitingJob.freedBy j.name waiting)
      (WaitingJob.keptBy j.name waiting)
    (j :: rest.1, rest.2)
termination_by line waiting => line.length + waiting.length
decreasing_by
  have h := WaitingJob.length_freedBy_add j.name waiting
  simp only [List.length_append, List.length_cons]
  omega

/-- The jobs in the order of submission, and those that wait for each other or for such jobs. -/
def arrange (jobs : List Job) : List Job × List WaitingJob :=
  let all := jobs.map fun j => (⟨j, j.parents⟩ : WaitingJob)
  takeFree ((all.filter (·.isFree)).map (·.job)) (all.filter (!·.isFree))

/-! ## Checks -/

/-- The first name that stands in a list for the second time. -/
def firstRepeated? : List String → List String → Option String
  | _, [] => none
  | seen, n :: rest => if n ∈ seen then some n else firstRepeated? (n :: seen) rest

/-- The first parent of a job, in the order of the list, that is no job of the list. -/
def firstUnknownParent? (jobs : List Job) : Option (String × String) :=
  let names := jobs.map (·.name)
  jobs.findSome? fun j => (j.parents.find? (!names.contains ·)).map fun p => (p, j.name)

end JobGraph

/-! ## Graphs -/

/-- Jobs that can be submitted, parents first.

Where graphs are kept, the places of jobs are numbers of 32 bits, so that no graph has 2 ^ 32 jobs
or more. The type does not say so. Statements that depend on it ask for fewer than `UInt32.size`
jobs; this leaves out no graph that can be kept. -/
structure JobGraph where
  /-- The jobs in the order in which they were given. -/
  jobs : List Job
  /-- The jobs in the order in which they are submitted. -/
  order : List Job
  /-- The order is the one in which the jobs become free, and every job becomes free. -/
  arranged : JobGraph.arrange jobs = (order, [])

namespace JobGraph

/-- The graph of a list of jobs, or the reason why there is none. -/
def ofJobs (jobs : List Job) : Except Error JobGraph :=
  match firstRepeated? [] (jobs.map (·.name)) with
  | some n => .error (.invalidOptions ("duplicate job name '" ++ n ++ "'"))
  | none =>
    match firstUnknownParent? jobs with
    | some (parent, child) => .error (.unknownJob (parent ++ " (parent of " ++ child ++ ")"))
    | none =>
      match h : arrange jobs with
      | (order, []) => .ok ⟨jobs, order, h⟩
      | (_, stuck) => .error (.cycle (stuck.map (·.job.name)))

/-- The graph without jobs. -/
def empty : JobGraph :=
  ⟨[], [], by simp [arrange, takeFree]⟩

/-- Decides whether there is nothing to do. -/
def isEmpty (g : JobGraph) : Bool :=
  g.jobs.isEmpty

/-- The number of jobs. -/
def size (g : JobGraph) : Nat :=
  g.jobs.length

/-- The job of a name. -/
def find? (g : JobGraph) (name : String) : Option Job :=
  g.jobs.find? (·.name == name)

/-- The names of the jobs in the order of submission, unless some keep each other waiting. -/
def namesInOrder (g : JobGraph) : Except Error (List String) :=
  match arrange g.jobs with
  | (order, []) => .ok (order.map (·.name))
  | (_, stuck) => .error (.cycle (stuck.map (·.job.name)))

/-- Takes the jobs of some names out of a list, one after the other. -/
def takeOut : List Job → List String → List Job
  | _, [] => []
  | jobs, name :: names =>
    match jobs.find? (·.name == name) with
    | some j => j :: takeOut (jobs.eraseP (·.name == name)) names
    | none => takeOut jobs names

/-- The jobs in the order of submission, as they are found in the graph. -/
def sorted (g : JobGraph) : Except Error (List Job) := do
  let names ← g.namesInOrder
  pure (names.filterMap g.find?)

/-- The jobs in the order of submission, as they are taken out of the graph. -/
def intoSorted (g : JobGraph) : Except Error (List Job) := do
  let names ← g.namesInOrder
  pure (takeOut g.jobs names)

/-! ## Links -/

/-- The places of the jobs and the links between them. -/
def table (g : JobGraph) : LinkTable :=
  .ofJobs g.jobs

/-- The number of dependencies. -/
def edgeCount (g : JobGraph) : Nat :=
  g.table.links.length

/-- The names of the jobs at some places. -/
def namesAt (g : JobGraph) (places : List Nat) : List String :=
  places.filterMap fun i => g.jobs[i]?.map (·.name)

/-- The names of the jobs that wait for nothing, in the order of the list. -/
def roots (g : JobGraph) : List String :=
  let table := g.table
  g.namesAt ((List.range g.size).filter fun i => (table.parentsAt i).isEmpty)

/-- The largest number of parents that a job has. -/
def maxFanIn (g : JobGraph) : Nat :=
  let table := g.table
  ((List.range g.size).map fun i => (table.parentsAt i).length).foldl max 0

/-- The names of the jobs next to a job on one side, in the order of the list. -/
def namesNear (g : JobGraph) (side : LinkTable → Nat → List Nat) (name : String) :
    Except Error (List String) := do
  let place ← orElseFail (.unknownJob name) (g.table.places.get? name)
  pure (g.namesAt (ascending (side g.table place)))

/-- The names of the jobs that a job waits for, in the order of the list. -/
def parentsOf (g : JobGraph) (name : String) : Except Error (List String) :=
  g.namesNear LinkTable.parentsAt name

/-- The names of the jobs that wait for a job, in the order of the list. -/
def childrenOf (g : JobGraph) (name : String) : Except Error (List String) :=
  g.namesNear LinkTable.childrenAt name

end JobGraph

end GeoAssets
