import GeoAssets.Proofs.Run.Atomic
import GeoAssets.Proofs.Run.Consistent

/-!
# Datasets keep their latest version

Whatever happens in a run, no dataset gains a second latest version, and none loses its latest
version as long as it has versions. Only requests touch the tags, one change at a time; background
work leaves them alone.
-/

namespace GeoAssets

/-! ## Steps -/

/-- The tags of the versions stay. -/
def World.KeepsTags (w w' : World) : Prop :=
  w'.store.tag? = w.store.tag?

instance : World.Permits World.KeepsTags where
  refl := fun _ => rfl
  trans := fun h h' => Eq.trans h' h
  measure := fun _ _ => rfl
  drawAsset := fun _ => rfl
  tiles := fun _ _ => rfl
  tearDown := fun _ _ _ _ => rfl
  commit := fun w t => w.store.tag?_commit t
  createTask := fun w t => w.store.tag?_createTask t
  updateAsset := fun _ _ _ _ hs => by
    obtain ⟨_, _, rfl⟩ := Store.updateAsset_eq_ok hs
    exact Store.tag?_eq rfl
  createAsset := fun _ _ _ hs => by
    obtain ⟨_, _, _, _, rfl⟩ := Store.createAsset_eq_ok hs
    exact Store.tag?_eq rfl
  appendTaskLog := fun _ _ _ _ _ hs => by
    obtain ⟨_, _, _, rfl⟩ := Store.appendTaskLog_eq_ok hs
    exact Store.tag?_eq rfl
  appendVersionLog := fun _ _ _ _ hs => Store.tag?_appendVersionLog hs

theorem Activity.step_keepsTags (a : Activity) : a.step.Within World.KeepsTags :=
  a.step_within fun _ _ _ _ _ => rfl

namespace Orchestrator

/-! ## Events -/

/-- An event changes the tags at once, if at all. -/
theorem handle_retags (o : Orchestrator) (e : Event) :
    o.world.store.Retags (o.handle e).world.store := by
  have h := o.handle_touches e
  generalize (o.handle e).world = w' at h ⊢
  cases h with
  | @request c _ _ hr => exact (c.flow_atomic o.world _ w' hr).retags
  | @step _ a _ _ _ hr => exact .same (a.step_keepsTags o.world _ w' hr)
  | surround s => exact .same (Store.tag?_eq rfl)
  | nothing => exact .same rfl

theorem oneLatest_after {o : Orchestrator} (ho : o.world.store.OneLatest) (es : List Event) :
    (o.after es).world.store.OneLatest := by
  induction es generalizing o with
  | nil => exact ho
  | cons e es ih => exact ih ((o.handle_retags e).oneLatest ho)

/-! ## Runs -/

/-- In a run every dataset has at most one latest version and keeps one as long as it has
versions. -/
structure KeepsLatest (o : Orchestrator) (es : List Event) : Prop where
  /-- No two versions of a dataset are its latest. -/
  unique : ∀ es₁ es₂ k k', es = es₁ ++ es₂ → (o.after es₁).world.store.IsLatest k →
    (o.after es₁).world.store.IsLatest k' → k.dataset = k'.dataset → k = k'
  /-- Where a dataset has a latest version before an event and versions after it, one of these is
  the latest. -/
  kept : ∀ es₁ e es₂ dataset, es = es₁ ++ e :: es₂ →
    (∃ k, k.dataset = dataset ∧ (o.after es₁).world.store.IsLatest k) →
    (∃ k v, k.dataset = dataset ∧ (o.after (es₁ ++ [e])).world.store.versions.get? k = some v) →
    ∃! k, k.dataset = dataset ∧ (o.after (es₁ ++ [e])).world.store.IsLatest k

/-- Datasets keep their latest version in every run. -/
theorem initial_keepsLatest (settings : Settings) (now : Timestamp) (ids : IdSupply)
    (es : List Event) : (initial settings now ids).KeepsLatest es := by
  have hone : ∀ es, ((initial settings now ids).after es).world.store.OneLatest :=
    oneLatest_after fun _ _ h => by cases h
  constructor
  case unique =>
    intro es₁ es₂ k k' _ hk hk' hd
    exact hone es₁ k k' (Store.isLatest_iff.mp hk) (Store.isLatest_iff.mp hk') hd
  case kept =>
    rintro es₁ e es₂ dataset _ ⟨k, hk, hlatest⟩ ⟨k', v, hk', hv⟩
    have hretags := handle_retags ((initial settings now ids).after es₁) e
    rw [← after_concat] at hretags
    have hthere : ((initial settings now ids).after (es₁ ++ [e])).world.store.tag? k' ≠ none := by
      rw [Ne, Store.tag?_eq_none_iff, hv]
      exact nofun
    obtain ⟨top, htop, htag⟩ := hretags.exists_latest
      ⟨k, hk, Store.isLatest_iff.mp hlatest⟩ ⟨k', hk', hthere⟩
    refine ⟨top, ⟨htop, Store.isLatest_iff.mpr htag⟩, ?_⟩
    rintro other ⟨hother, hlatest'⟩
    exact hone _ other top (Store.isLatest_iff.mp hlatest') htag (hother.trans htop.symm)

/-! ## A run -/

namespace Sample

/-- The tag goes from one version to another and back. In between the latest version cannot be
deleted, and in the end the other one is. -/
def latestMoved : List Event :=
  datasetFiled ++ [.command createTable, .command createLatest,
    .command (.deleteVersion ⟨"d", "v2"⟩), .command (.setLatest ⟨"d", "v1"⟩),
    .command (.deleteVersion ⟨"d", "v2"⟩), .advance 0, .command createLatest]

/-- The keys and tags of the versions. -/
def tags (o : Orchestrator) : List (String × Bool) :=
  o.world.store.versions.entries.map fun e => (e.1.version, e.2.isLatest)

end Sample

set_option maxRecDepth 100000 in
theorem latestMoved_keepsLatest : ∃ es, es = Sample.latestMoved ∧
    (List.range 9).map (fun n => Sample.tags (Sample.start.after (es.take n))) =
      [[], [], [("v1", false)], [("v1", false), ("v2", true)], [("v1", false), ("v2", true)],
        [("v1", true), ("v2", false)], [("v1", true)], [("v1", true)],
        [("v1", false), ("v2", true)]] ∧
      Sample.start.KeepsLatest es := by
  refine ⟨_, rfl, ?_, initial_keepsLatest _ _ _ _⟩
  decide +kernel

end Orchestrator

end GeoAssets
