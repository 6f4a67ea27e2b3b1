import GeoAssets.Compute.Job
import GeoAssets.Directory

/-!
# Links between jobs

What waits for what, apart from the jobs themselves. A job is given by its place in a list, and for
every parent that a job names a link leads from the place of the parent to its own. So a parent that
is named twice is linked twice, and what stands next to a job is told in the order of the list, each
once (`ascending`).
-/

namespace GeoAssets

/-- Two jobs, given by their places, of which one waits for the other. -/
structure Link where
  parent : Nat
  child : Nat
  deriving DecidableEq, Repr

/-- The places of jobs by name, and the links between them. -/
structure LinkTable where
  places : Directory String Nat := {}
  links : List Link := []
  deriving DecidableEq, Repr

namespace LinkTable

/-! ## Building -/

/-- Files the places of jobs under their names; the first job stands at the place that is given. -/
def filePlaces (places : Directory String Nat) : Nat → List Job → Directory String Nat
  | _, [] => places
  | i, j :: rest => filePlaces (places.insert j.name i) (i + 1) rest

/-- The places of the parents of a job, as often as they are named. -/
def parentPlaces (places : Directory String Nat) (j : Job) : List Nat :=
  j.parents.filterMap places.get?

/-- The links to jobs from their parents; the first job stands at the place that is given. -/
def linksFrom (places : Directory String Nat) : Nat → List Job → List Link
  | _, [] => []
  | i, j :: rest => (parentPlaces places j).map (⟨·, i⟩) ++ linksFrom places (i + 1) rest

/-- The table of a list of jobs. All places are filed before the first link is made, so a parent may
stand behind a job that waits for it. -/
def ofJobs (jobs : List Job) : LinkTable :=
  let places := filePlaces {} 0 jobs
  ⟨places, linksFrom places 0 jobs⟩

/-! ## Looking up -/

/-- The places from which links lead to a place, one for each link. -/
def parentsAt (t : LinkTable) (i : Nat) : List Nat :=
  (t.links.filter (·.child == i)).map (·.parent)

/-- The places to which links lead from a place, one for each link. -/
def childrenAt (t : LinkTable) (i : Nat) : List Nat :=
  (t.links.filter (·.parent == i)).map (·.child)

end LinkTable

/-! ## Ascending numbers -/

/-- Leaves out every number that stands right behind an equal one. -/
def skipRepeats : List Nat → List Nat
  | m :: n :: rest => if m = n then skipRepeats (n :: rest) else m :: skipRepeats (n :: rest)
  | ns => ns

/-- Some numbers from the smallest to the largest, each once. -/
def ascending (ns : List Nat) : List Nat :=
  skipRepeats (ns.mergeSort (· ≤ ·))

end GeoAssets
