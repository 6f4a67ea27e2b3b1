import GeoAssets.Proofs.Lifecycle.Within
import GeoAssets.Proofs.Run.Sound

/-!
# Ids are only drawn

No event takes back an id or changes the supply. So the ids that were drawn are distinct at every
point of a run if they are distinct at its end.
-/

namespace GeoAssets

/-! ## Programs -/

/-- A program does not touch the supply of ids but for drawing from it. -/
def Flow.OnlyDraws {α : Type} (f : Flow α) : Prop :=
  ∀ w r w', f.run w = (r, w') → w.ids.Extends w'.ids

/-- The supply of ids stays as it is but for what is drawn from it. -/
def World.DrawsOnly (w w' : World) : Prop :=
  w.ids.Extends w'.ids

instance : World.Permits World.DrawsOnly where
  refl := fun w => .refl w.ids
  trans := .trans
  measure := fun w _ => .refl w.ids
  drawAsset := fun w => (World.Evolves.drawAsset w).ids
  tiles := fun w _ => .refl w.ids
  tearDown := fun w _ _ _ => .refl w.ids
  commit := fun w _ => .refl w.ids
  createTask := fun w _ => .refl w.ids
  updateAsset := fun w _ _ _ _ => .refl w.ids
  createAsset := fun w _ _ _ => .refl w.ids
  appendTaskLog := fun w _ _ _ _ _ => .refl w.ids
  appendVersionLog := fun w _ _ _ _ => .refl w.ids

theorem Activity.step_onlyDraws (a : Activity) : a.step.OnlyDraws :=
  a.step_within (R := World.DrawsOnly) fun _ _ _ _ _ => ⟨rfl, rfl, Nat.le_refl _, Nat.le_succ _⟩

/-! ## Requests -/

/-- A relation that allows what requests do. -/
class World.PermitsRequests (R : World → World → Prop) : Prop extends World.Order R where
  drawAsset : ∀ w : World, R w { w with ids := { w.ids with assetsDrawn := w.ids.assetsDrawn + 1 } }
  store : ∀ (w : World) store, R w { w with store }
  distribution : ∀ (w : World) distribution,
    R w { w with services := { w.services with distribution } }

instance : World.PermitsRequests World.DrawsOnly where
  drawAsset := World.Permits.drawAsset
  store := fun w _ => .refl w.ids
  distribution := fun w _ => .refl w.ids

namespace Command

open Flow.Within

variable {R : World → World → Prop} [World.PermitsRequests R]

theorem draw_within : Flow.drawAssetId.Within R :=
  drawAssetId World.PermitsRequests.drawAsset

theorem store_within (f : Store → Except Error Store) : (Flow.updateStore f).Within R :=
  updateStore fun w s _ => World.PermitsRequests.store w s

theorem take_within {α : Type} (f : Store → Except Error (α × Store)) :
    (Flow.takeFromStore f).Within R :=
  takeFromStore fun w _ s _ => World.PermitsRequests.store w s

theorem forgetLatest_within (key : VersionKey) : (Request.forgetLatest key).Within R := by
  refine bind (read _) fun _ => bind (attempt (updateServices fun w s hs => ?_)) fun _ => pure _
  obtain ⟨distribution, _, hs⟩ := bind_eq_ok_iff.mp hs
  cases hs
  exact World.PermitsRequests.distribution w distribution

/-- A request stays within what requests may do. -/
theorem flow_within (c : Command) : c.flow.Within R := by
  cases c with
  | createDataset d => exact map (bind (store_within _) fun _ => pure _)
  | deleteDataset name => exact map (take_within _)
  | createVersion q =>
    refine map (bind draw_within fun _ => bind (read _) fun _ => bind (read _) fun _ =>
      bind (check _) fun answer => bind (store_within _) fun _ => ?_)
    dsimp only
    split
    · exact bind (forgetLatest_within _) fun _ => pure _
    · exact pure _
  | setLatest key =>
    exact map (bind (take_within _) fun _ => bind (forgetLatest_within _) fun _ => pure _)
  | deleteVersion key => exact map (bind (take_within _) fun _ => bind (read _) fun _ => pure _)
  | createDefaultAsset key sourceType options =>
    exact map (bind (bind (read _) fun _ => check _) fun _ => bind draw_within fun _ =>
      bind (read _) fun _ => bind (read _) fun _ => bind (check _) fun answer =>
        bind (store_within _) fun _ => pure _)
  | createAsset key type options =>
    exact map (bind (bind (read _) fun _ => check _) fun _ => bind draw_within fun _ =>
      bind (read _) fun _ => bind (read _) fun _ => bind (read _) fun _ => bind (check _)
        fun answer => bind (store_within _) fun _ => pure _)
  | deleteAsset id =>
    exact map (bind (bind (read _) fun _ => check _) fun _ => bind (check _) fun _ =>
      bind (read _) fun _ => bind (check _) fun _ => bind (take_within _) fun _ => pure _)
  | getTask id => exact map (bind (read _) fun _ => check _)
  | resubmissionCores id current => exact map (map (bind (read _) fun _ => check _))
  | resubmissionProcesses id current => exact map (map (bind (read _) fun _ => check _))

/-- A request only draws ids. -/
theorem flow_onlyDraws (c : Command) : c.flow.OnlyDraws :=
  c.flow_within (R := World.DrawsOnly)

end Command

/-! ## Events -/

namespace Orchestrator

theorem handle_extends (o : Orchestrator) (e : Event) :
    o.world.ids.Extends (o.handle e).world.ids := by
  have h := o.handle_touches e
  generalize (o.handle e).world = w' at h ⊢
  cases h with
  | @request c _ _ hr => exact c.flow_onlyDraws o.world _ w' hr
  | @step _ a _ _ _ hr => exact a.step_onlyDraws o.world _ w' hr
  | surround s => exact .refl _
  | nothing => exact .refl _

theorem after_extends (o : Orchestrator) (es : List Event) :
    o.world.ids.Extends (o.after es).world.ids := by
  induction es generalizing o with
  | nil => exact .refl _
  | cons e es ih =>
    rw [after_cons]
    exact (o.handle_extends e).trans (ih (o.handle e))

/-- Ids that are distinct at the end of a run are so before. -/
theorem distinct_of_append {o : Orchestrator} {es es' : List Event}
    (hd : (o.after (es ++ es')).world.ids.Distinct) : (o.after es).world.ids.Distinct := by
  rw [after_append] at hd
  exact (after_extends _ es').distinct hd

end Orchestrator

end GeoAssets
