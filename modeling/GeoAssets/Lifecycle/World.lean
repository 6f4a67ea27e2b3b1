import GeoAssets.Catalog.Store.Assets
import GeoAssets.Catalog.Store.Tasks
import GeoAssets.Catalog.Store.Versions
import GeoAssets.Compute.Cluster
import GeoAssets.Measurement
import GeoAssets.Services

/-!
# The world

Everything that the orchestrator sees and changes: the store, the cluster, the services outside the
catalog and the counters, together with the settings, the time and the supply of new ids.

A `Flow` is a program that changes the world and may fail. What it changed before it failed stays
changed.
-/

namespace GeoAssets

/-! ## New ids -/

/-- The supply of new ids. -/
structure IdSupply where
  /-- The ids of assets in the order in which they are drawn. -/
  asset : Nat → AssetId
  /-- The ids of jobs in the order in which the cluster assigns them. -/
  task : Nat → TaskId
  assetsDrawn : Nat := 0
  tasksDrawn : Nat := 0

/-! ## The world -/

/-- Everything that the orchestrator sees and changes. -/
structure World where
  settings : Settings
  /-- The time at which things are noted. -/
  now : Timestamp
  ids : IdSupply
  store : Store := {}
  cluster : Cluster := {}
  services : Services := {}
  /-- What was counted, latest first. -/
  measurements : List Measurement := []

namespace World

/-- Counts something. -/
def measure (w : World) (m : Measurement) : World :=
  { w with measurements := m :: w.measurements }

end World

/-! ## Flows -/

/-- A program that changes the world and may fail. -/
abbrev Flow (α : Type) := ExceptT Error (StateM World) α

namespace Flow

variable {α β : Type}

/-- The result of a program and the world after it. -/
def run (f : Flow α) (w : World) : Except Error α × World :=
  StateT.run (m := Id) (ExceptT.run f) w

/-- The program with a given result and world after it. -/
def ofRun (f : World → Except Error α × World) : Flow α :=
  ExceptT.mk fun w => f w

theorem run_ofRun (f : World → Except Error α × World) (w : World) : (ofRun f).run w = f w :=
  rfl

theorem run_pure (a : α) (w : World) : (pure a : Flow α).run w = (.ok a, w) :=
  rfl

theorem run_throw (e : Error) (w : World) : (throw e : Flow α).run w = (.error e, w) :=
  rfl

/-- A program goes on after another one that succeeded. -/
theorem run_bind (f : Flow α) (g : α → Flow β) (w : World) :
    (f >>= g).run w =
      match f.run w with
      | (.ok a, w') => (g a).run w'
      | (.error e, w') => (.error e, w') := by
  have h : (f >>= g).run w = ExceptT.bindCont g (f.run w).1 (f.run w).2 := rfl
  rw [h]
  obtain ⟨_ | _, _⟩ := f.run w <;> rfl

/-! ## What flows give -/

/-- What a program gives, if it succeeds, has a property. -/
def Gives (f : Flow α) (p : α → Prop) : Prop :=
  ∀ w a w', f.run w = (.ok a, w') → p a

namespace Gives

variable {p : β → Prop}

theorem pure {a : β} (h : p a) : Gives (Pure.pure a) p := by
  intro w b w' hb
  cases hb
  exact h

theorem throw (e : Error) : Gives (MonadExcept.throw e : Flow β) p := by
  intro w b w' hb
  cases hb

/-- What a program gives at its end depends on what it does last. -/
theorem bind {f : Flow α} {g : α → Flow β} (h : ∀ a, Gives (g a) p) : Gives (f >>= g) p := by
  intro w b w' hb
  rw [run_bind] at hb
  split at hb
  · exact h _ _ _ _ hb
  · cases hb

theorem map {f : Flow α} {g : α → β} (h : ∀ a, p (g a)) : Gives (g <$> f) p :=
  bind fun a => Gives.pure (h a)

end Gives

/-! ## Single steps -/

/-- Changes the world and gives a value. -/
def ofWorld (f : World → α × World) : Flow α :=
  ofRun fun w =>
    let (a, w) := f w
    (.ok a, w)

/-- Reads the world. -/
def read (f : World → α) : Flow α :=
  ofRun fun w => (.ok (f w), w)

/-- Changes the world. -/
def change (f : World → World) : Flow Unit :=
  ofRun fun w => (.ok (), f w)

/-- Goes on with a value that may be an error. -/
def check (r : Except Error α) : Flow α :=
  ofRun fun w => (r, w)

/-- Goes on with the result of a program, even if it is an error. -/
def attempt (f : Flow α) : Flow (Except Error α) :=
  ofRun fun w =>
    let (r, w) := f.run w
    (.ok r, w)

/-- Gives a value, if there is one, where a program fails. -/
def elseGive (f : Flow α) (a? : Option α) : Flow α :=
  ofRun fun w =>
    match f.run w, a? with
    | (.error _, w), some a => (.ok a, w)
    | result, _ => result

theorem Gives.elseGive {f : Flow α} {a? : Option α} {p : α → Prop} (h : Gives f p)
    (ha : ∀ a ∈ a?, p a) : Gives (f.elseGive a?) p := by
  intro w b w' hb
  rw [Flow.elseGive, run_ofRun] at hb
  split at hb
  · cases hb
    exact ha _ rfl
  · exact h _ _ _ hb

/-- Changes the store, or fails and leaves it as it is. -/
def updateStore (f : Store → Except Error Store) : Flow Unit :=
  ofRun fun w =>
    match f w.store with
    | .ok store => (.ok (), { w with store })
    | .error e => (.error e, w)

/-- Takes a value out of the store and changes it, or fails and leaves it as it is. -/
def takeFromStore (f : Store → Except Error (α × Store)) : Flow α :=
  ofRun fun w =>
    match f w.store with
    | .ok (a, store) => (.ok a, { w with store })
    | .error e => (.error e, w)

/-- Changes the services, or fails and leaves them as they are. -/
def updateServices (f : Services → Except Error Services) : Flow Unit :=
  ofRun fun w =>
    match f w.services with
    | .ok services => (.ok (), { w with services })
    | .error e => (.error e, w)

/-- Counts something. -/
def measure (m : Measurement) : Flow Unit :=
  change (·.measure m)

/-- Draws the id of a new asset. -/
def drawAssetId : Flow AssetId :=
  ofRun fun w =>
    (.ok (w.ids.asset w.ids.assetsDrawn),
      { w with ids := { w.ids with assetsDrawn := w.ids.assetsDrawn + 1 } })

end Flow

end GeoAssets
