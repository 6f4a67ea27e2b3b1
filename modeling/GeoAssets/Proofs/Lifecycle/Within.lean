import GeoAssets.Lifecycle.Step
import GeoAssets.Proofs.Lifecycle.Submission

/-!
# How far programs go

`Flow.Within` says that a program changes the world only as a relation allows, whatever it gives.
For a relation that allows nothing to change and several changes in a row, a program stays within it
if its parts do. So a relation that allows what steps do at once (`World.Permits`) allows every step
of an activity.
-/

namespace GeoAssets

/-- A relation between worlds that allows nothing to change, and several changes in a row. -/
class World.Order (R : World → World → Prop) : Prop where
  refl : ∀ w, R w w
  trans : ∀ {w w' w''}, R w w' → R w' w'' → R w w''

namespace Flow

variable {α β : Type} {R : World → World → Prop}

/-- A program changes the world only as a relation allows. -/
def Within (R : World → World → Prop) (f : Flow α) : Prop :=
  ∀ w r w', f.run w = (r, w') → R w w'

/-! ## Parts of programs -/

namespace Within

theorem ofRun {f : World → Except Error α × World} (h : ∀ w, R w (f w).2) :
    Within R (Flow.ofRun f) := by
  intro w r w' hr
  have hw : w' = (f w).2 := (congrArg Prod.snd hr).symm
  rw [hw]
  exact h w

theorem ofWorld {f : World → α × World} (h : ∀ w, R w (f w).2) : Within R (Flow.ofWorld f) :=
  ofRun h

theorem measure {m : Measurement} (h : ∀ w, R w (w.measure m)) : Within R (Flow.measure m) :=
  ofRun h

theorem drawAssetId (h : ∀ w : World,
      R w { w with ids := { w.ids with assetsDrawn := w.ids.assetsDrawn + 1 } }) :
    Within R Flow.drawAssetId :=
  ofRun h

variable [World.Order R]

theorem pure (a : α) : Within R (Pure.pure a : Flow α) :=
  ofRun fun w => World.Order.refl w

theorem throw (e : Error) : Within R (MonadExcept.throw e : Flow α) :=
  ofRun fun w => World.Order.refl w

theorem read (f : World → α) : Within R (Flow.read f) :=
  ofRun fun w => World.Order.refl w

theorem check (x : Except Error α) : Within R (Flow.check x) :=
  ofRun fun w => World.Order.refl w

theorem bind {f : Flow α} {g : α → Flow β} (hf : Within R f) (hg : ∀ a, Within R (g a)) :
    Within R (f >>= g) := by
  intro w r w' h
  rcases run_bind_cases h with ⟨a, w₁, hf', hg'⟩ | ⟨e, hf', _⟩
  · exact World.Order.trans (hf w _ w₁ hf') (hg a w₁ r w' hg')
  · exact hf w _ w' hf'

theorem map {f : Flow α} {g : α → β} (hf : Within R f) : Within R (g <$> f) :=
  bind hf fun a => pure (g a)

omit [World.Order R] in
theorem attempt {f : Flow α} (hf : Within R f) : Within R (Flow.attempt f) :=
  ofRun fun w => hf w _ _ rfl

omit [World.Order R] in
theorem elseGive {f : Flow α} (hf : Within R f) (a? : Option α) : Within R (f.elseGive a?) := by
  refine ofRun fun w => ?_
  rcases hr : f.run w with ⟨r₀, w₁⟩
  have hw₁ := hf w r₀ w₁ hr
  rcases r₀ with e | a <;> rcases a? with _ | b <;> exact hw₁

theorem updateStore {f : Store → Except Error Store}
    (h : ∀ (w : World) s, f w.store = .ok s → R w { w with store := s }) :
    Within R (Flow.updateStore f) := by
  intro w r w' hr
  rcases run_updateStore_cases hr with ⟨s, hs, _, rfl⟩ | ⟨_, _, _, rfl⟩
  · exact h w s hs
  · exact World.Order.refl w'

theorem takeFromStore {f : Store → Except Error (α × Store)}
    (h : ∀ (w : World) a s, f w.store = .ok (a, s) → R w { w with store := s }) :
    Within R (Flow.takeFromStore f) := by
  intro w r w' hr
  rcases run_takeFromStore_cases hr with ⟨a, s, hs, _, rfl⟩ | ⟨_, _, _, rfl⟩
  · exact h w a s hs
  · exact World.Order.refl w'

theorem updateServices {f : Services → Except Error Services}
    (h : ∀ (w : World) s, f w.services = .ok s → R w { w with services := s }) :
    Within R (Flow.updateServices f) := by
  refine ofRun fun w => ?_
  split
  · next s hs => exact h w s hs
  · exact World.Order.refl w

end Within

end Flow

/-! ## Steps -/

/-- A relation that allows what steps do at once, but for handing jobs to the cluster. -/
class World.Permits (R : World → World → Prop) : Prop extends World.Order R where
  measure : ∀ (w : World) m, R w (w.measure m)
  drawAsset : ∀ w : World, R w { w with ids := { w.ids with assetsDrawn := w.ids.assetsDrawn + 1 } }
  tiles : ∀ (w : World) tiles, R w { w with services := { w.services with tiles } }
  tearDown : ∀ (w : World) (action : TeardownAction) services,
    action.run w.services = .ok services → R w { w with services }
  commit : ∀ (w : World) t, R w { w with store := (w.store.commit t).2 }
  createTask : ∀ (w : World) t, R w { w with store := (w.store.createTask t).2 }
  updateAsset : ∀ (w : World) id change store, w.store.updateAsset id change = .ok store →
    R w { w with store }
  createAsset : ∀ (w : World) a store, w.store.createAsset a = .ok store → R w { w with store }
  appendTaskLog : ∀ (w : World) id e t store, w.store.appendTaskLog id e = .ok (t, store) →
    R w { w with store }
  appendVersionLog : ∀ (w : World) key e store, w.store.appendVersionLog key e = .ok store →
    R w { w with store }

/-- A relation allows that a job is handed to the cluster. -/
def World.PermitsJobs (R : World → World → Prop) : Prop :=
  ∀ (w : World) (r : SubmitRequest) cluster,
    w.cluster.submit (w.ids.task w.ids.tasksDrawn) r = .ok cluster →
    R w { w with cluster, ids := { w.ids with tasksDrawn := w.ids.tasksDrawn + 1 } }

variable {R : World → World → Prop}

open Flow.Within

namespace World.Permits

variable [Permits R]

theorem measureSettled (w : World) (a : Asset) (v : Option Version) :
    R w (w.measureSettled a v) := by
  unfold World.measureSettled
  cases v with
  | none => exact measure w _
  | some v => exact Order.trans (measure w _) (measure _ _)

theorem redeployTiles (w : World) (x : AssetId) : R w (w.redeployTiles x) := by
  unfold World.redeployTiles
  split
  · exact tiles w _
  · split
    · next hs => exact updateAsset w _ _ _ hs
    · exact Order.refl w

theorem settle (w : World) (a : Asset) (o : Outcome) : R w (w.settle a o).2 := by
  have hcommit := commit (R := R) w (o.transition a (w.fieldsFor a o))
  unfold World.settle
  split
  · next b v _ hs =>
    rw [hs] at hcommit
    have hmeasured := Order.trans hcommit (measureSettled _ b v)
    dsimp only
    split
    · exact Order.trans hmeasured (redeployTiles _ _)
    · exact hmeasured
  · next hs =>
    rw [hs] at hcommit
    exact hcommit

theorem settleByTasks (w : World) (x : AssetId) : R w (w.settleByTasks x).2 := by
  unfold World.settleByTasks
  split
  · exact Order.refl w
  · split
    · exact settle w _ _
    · exact Order.refl w
    · exact Order.refl w

end World.Permits

namespace Submission

variable [World.Permits R]

theorem tryRecord_within (t : Task) : (tryRecord t).Within R := by
  refine Flow.Within.ofRun fun w => ?_
  have h := World.Permits.createTask (R := R) w t
  split <;> next hs => rw [hs] at h; exact h

theorem recordTask_within (t : Task) (retries : Nat) : (recordTask t retries).Within R := by
  induction retries with
  | zero =>
    refine bind (tryRecord_within t) fun e? => ?_
    cases e? with
    | none => exact pure _
    | some e => exact throw e
  | succ retries ih =>
    refine bind (tryRecord_within t) fun e? => ?_
    cases e? with
    | none => exact pure _
    | some _ => exact ih

theorem submitRequest_within (h : World.PermitsJobs R) (r : SubmitRequest) :
    (submitRequest r).Within R := by
  refine Flow.Within.ofRun fun w => ?_
  dsimp only
  split
  · next cluster hc => exact h w r cluster hc
  · exact World.Order.refl w

theorem submitJob_within (h : World.PermitsJobs R) (asset : AssetId)
    (ids : Directory String TaskId) (job : Job) : (submitJob asset ids job).Within R := by
  refine bind (check _) fun _ => bind (read _) fun _ => bind (check _) fun r =>
    bind (submitRequest_within h r) fun _ => bind (read _) fun _ =>
      bind (attempt (recordTask_within _ _)) fun answer => ?_
  cases answer with
  | ok _ => exact pure _
  | error e => exact throw _

end Submission

theorem TileCache.file_within [World.Permits R] (table : Asset) : (file table).Within R :=
  bind (drawAssetId World.Permits.drawAsset) fun _ => bind (read _) fun _ => bind (read _) fun _ =>
    bind (check _) fun cache =>
      bind (updateStore fun w s hs => World.Permits.createAsset w cache s hs) fun _ => pure _

namespace Activity

/-- The next step hands a job to the cluster. -/
def submits : Activity → Bool
  | .submit _ (_ :: _) _ _ => true
  | _ => false

variable [World.Permits R]

theorem proceed_within (a : Activity) (hjobs : a.submits = true → World.PermitsJobs R) :
    a.proceed.Within R := by
  have counts : ∀ m, (Flow.measure m).Within R := fun m =>
    Flow.Within.measure (World.Permits.measure · m)
  cases a with
  | submit asset jobs ids goal =>
    cases jobs with
    | nil =>
      refine bind (counts _) fun _ => bind (check _) fun _ => ?_
      cases goal with
      | none => exact pure _
      | some goal => exact pure _
    | cons job jobs =>
      refine bind (attempt (Submission.submitJob_within (hjobs rfl) _ _ _)) fun r => ?_
      cases r with
      | ok id => exact bind (counts _) fun _ => pure _
      | error e => exact bind (counts _) fun _ => pure _
  | abandon asset job cause =>
    exact bind (ofWorld fun w => World.Permits.settle w _ _) fun _ =>
      bind (counts _) fun _ => throw _
  | expect asset count goal =>
    exact bind (updateStore fun w s hs => World.Permits.updateAsset w _ _ s hs) fun _ => pure _
  | evaluate asset goal => exact map (ofWorld fun w => World.Permits.settleByTasks w _)
  | inspect asset goal =>
    exact bind (read _) fun _ =>
      bind (updateStore fun w s hs => World.Permits.updateAsset w _ _ s hs) fun _ => pure _
  | settle asset outcome goal => exact map (ofWorld fun w => World.Permits.settle w _ _)
  | receive task entry =>
    exact bind (check _) fun _ => bind (counts _) fun _ => bind (bind (read _) fun _ => check _)
      fun _ => pure _
  | record asset task entry =>
    exact bind (takeFromStore fun w t s hs => World.Permits.appendTaskLog w _ _ t s hs) fun _ =>
      bind (ofWorld fun w => World.Permits.settleByTasks w _) fun _ => pure _
  | register table goal =>
    refine bind (attempt (TileCache.file_within _)) fun r => ?_
    cases r with
    | ok cache => exact pure _
    | error e =>
      exact bind (read _) fun _ =>
        bind (updateStore fun w s hs => World.Permits.appendVersionLog w _ _ s hs) fun _ => pure _
  | tearDown actions error? =>
    cases actions with
    | nil =>
      cases error? with
      | none => exact pure _
      | some e => exact throw _
    | cons action actions =>
      refine bind (attempt (updateServices fun w s hs => World.Permits.tearDown w _ s hs))
        fun r => ?_
      cases r with
      | ok _ => exact bind (counts _) fun _ => pure _
      | error e => exact bind (counts _) fun _ => pure _

/-- A step stays within what it may do at once. -/
theorem step_within (a : Activity) (hjobs : a.submits = true → World.PermitsJobs R) :
    a.step.Within R :=
  elseGive (a.proceed_within hjobs) _

end Activity

end GeoAssets
