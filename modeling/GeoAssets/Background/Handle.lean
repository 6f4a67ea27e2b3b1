import GeoAssets.Background.Script

/-!
# Handles

Whoever starts work is given a handle under a name, with which the end of the work can be waited for
once. Work goes on without its handle, too.
-/

namespace GeoAssets

/-- Scripts in the background with the handles that were given out. -/
structure Handles where
  crew : Crew := {}
  /-- The pieces behind the handles; nothing if the work was done at once. -/
  pieces : List (String × Option Nat) := []

namespace Handles

/-- Decides whether there is a handle. -/
def has (h : Handles) (name : String) : Bool :=
  (h.pieces.lookup name).isSome

/-- Gives up a handle. -/
def drop (h : Handles) (name : String) : Handles :=
  { h with pieces := h.pieces.filter (·.1 != name) }

/-- Gives out a handle, in place of one with the same name. -/
def give (h : Handles) (name : String) (piece : Option Nat) : Handles :=
  { h with pieces := (name, piece) :: (h.drop name).pieces }

/-- Starts work and gives out its handle. -/
def start (h : Handles) (name : String) (work : Script) : Handles :=
  let (n, crew) := h.crew.start name work
  ({ h with crew }).give name (some n)

/-- Gives out the handle of work that was done at once. -/
def completed (h : Handles) (name : String) : Handles :=
  h.give name none

/-- Waits for the work of a handle. Gives nothing if there is no such handle. -/
def wait (h : Handles) (name : String) : Option (Except Error Unit) × Handles :=
  match h.pieces.lookup name with
  | none => (none, h)
  | some none => (some (.ok ()), h.drop name)
  | some (some n) =>
    let crew := h.crew.await n
    ((crew.work.endings.get? n).map (·.result name), ({ h with crew }).drop name)

end Handles

end GeoAssets
