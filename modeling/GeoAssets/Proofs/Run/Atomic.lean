import GeoAssets.Proofs.Catalog.Latest
import GeoAssets.Proofs.Lifecycle.Within
import GeoAssets.Proofs.Run.Basic

/-!
# Requests are atomic

A request checks everything, then changes the store in one operation, and what it does after that
cannot fail. So a request that is refused leaves the store, the cluster and the services as they
were (`Command.flow_atomic`).
-/

namespace GeoAssets

/-! ## Programs -/

/-- Nothing has changed but ids and counters. -/
structure World.Untouched (w w' : World) : Prop where
  store : w'.store = w.store
  cluster : w'.cluster = w.cluster
  services : w'.services = w.services

instance : World.Order World.Untouched where
  refl := fun _ => ⟨rfl, rfl, rfl⟩
  trans := fun h h' => ⟨h'.store.trans h.store, h'.cluster.trans h.cluster,
    h'.services.trans h.services⟩

/-- What a request may do, given its answer. -/
structure World.Answers {α : Type} (w : World) (r : Except Error α) (w' : World) : Prop where
  cluster : w'.cluster = w.cluster
  retags : w.store.Retags w'.store
  refused : ∀ e, r = .error e → w.Untouched w'

namespace Flow

variable {α β : Type}

/-- A program looks at the world and draws ids at most. -/
abbrev Looks (f : Flow α) : Prop :=
  f.Within World.Untouched

/-- A program cannot fail, and changes neither the store nor the cluster. -/
def Follows (f : Flow α) : Prop :=
  ∀ w r w', f.run w = (r, w') → (∃ a, r = .ok a) ∧ w'.store = w.store ∧ w'.cluster = w.cluster

/-- A program changes the store in one operation, unless it fails; then it changes nothing. -/
def Atomic (f : Flow α) : Prop :=
  ∀ w r w', f.run w = (r, w') → w.Answers r w'

theorem looks_drawAssetId : Looks drawAssetId :=
  .drawAssetId fun _ => ⟨rfl, rfl, rfl⟩

theorem follows_pure (a : α) : Follows (pure a : Flow α) := by
  intro w r w' h
  cases h
  exact ⟨⟨a, rfl⟩, rfl, rfl⟩

theorem Follows.bind {f : Flow α} {g : α → Flow β} (hf : Follows f) (hg : ∀ a, Follows (g a)) :
    Follows (f >>= g) := by
  intro w r w' h
  rcases run_bind_cases h with ⟨a, w₁, hf', hg'⟩ | ⟨e, hf', _⟩
  · obtain ⟨_, hs, hc⟩ := hf w _ w₁ hf'
    obtain ⟨hr, hs', hc'⟩ := hg a w₁ r w' hg'
    exact ⟨hr, hs'.trans hs, hc'.trans hc⟩
  · obtain ⟨⟨_, hr⟩, _⟩ := hf w _ w' hf'
    cases hr

namespace Atomic

theorem of_looks {f : Flow α} (hf : Looks f) : Atomic f := by
  intro w r w' h
  have hw := hf w r w' h
  exact ⟨hw.cluster, .same (by rw [hw.store]), fun _ _ => hw⟩

/-- What is checked at first does not matter. -/
theorem look {f : Flow α} {g : α → Flow β} (hf : Looks f) (hg : ∀ a, Atomic (g a)) :
    Atomic (f >>= g) := by
  intro w r w' h
  rcases run_bind_cases h with ⟨a, w₁, hf', hg'⟩ | ⟨e, hf', rfl⟩
  · have hw := hf w _ w₁ hf'
    obtain ⟨hc, hs, hr⟩ := hg a w₁ r w' hg'
    refine ⟨hc.trans hw.cluster, ?_, fun e he => World.Order.trans hw (hr e he)⟩
    rw [← hw.store]
    exact hs
  · obtain ⟨hc, hs, hr⟩ := of_looks hf w _ w' hf'
    exact ⟨hc, hs, fun _ _ => hr e rfl⟩

/-- What cannot fail may come at the end. -/
theorem follow {f : Flow α} {g : α → Flow β} (hf : Atomic f) (hg : ∀ a, Follows (g a)) :
    Atomic (f >>= g) := by
  intro w r w' h
  rcases run_bind_cases h with ⟨a, w₁, hf', hg'⟩ | ⟨e, hf', rfl⟩
  · obtain ⟨hc, hs, _⟩ := hf w _ w₁ hf'
    obtain ⟨⟨b, rfl⟩, hs', hc'⟩ := hg a w₁ r w' hg'
    refine ⟨hc'.trans hc, ?_, nofun⟩
    rw [hs']
    exact hs
  · obtain ⟨hc, hs, hr⟩ := hf w _ w' hf'
    exact ⟨hc, hs, fun _ _ => hr e rfl⟩

theorem map {f : Flow α} {g : α → β} (hf : Atomic f) : Atomic (g <$> f) :=
  hf.follow fun a => follows_pure (g a)

theorem updateStore {f : Store → Except Error Store} (h : ∀ s s', f s = .ok s' → s.Retags s') :
    Atomic (Flow.updateStore f) := by
  intro w r w' hr
  rcases run_updateStore_cases hr with ⟨s, hs, rfl, rfl⟩ | ⟨_, _, _, rfl⟩
  · exact ⟨rfl, h _ s hs, nofun⟩
  · exact ⟨rfl, .same rfl, fun _ _ => World.Order.refl w'⟩

theorem takeFromStore {f : Store → Except Error (α × Store)}
    (h : ∀ s a s', f s = .ok (a, s') → s.Retags s') : Atomic (Flow.takeFromStore f) := by
  intro w r w' hr
  rcases run_takeFromStore_cases hr with ⟨a, s, hs, rfl, rfl⟩ | ⟨_, _, _, rfl⟩
  · exact ⟨rfl, h _ a s hs, nofun⟩
  · exact ⟨rfl, .same rfl, fun _ _ => World.Order.refl w'⟩

end Atomic

end Flow

/-! ## Requests -/

namespace Command

open GeoAssets.Flow Flow.Within

theorem forgetLatest_follows (key : VersionKey) : Follows (Request.forgetLatest key) := by
  intro w r w' h
  unfold Request.forgetLatest at h
  rw [run_read_bind, run_attempt_bind] at h
  cases h
  refine ⟨⟨(), rfl⟩, ?_⟩
  unfold Flow.updateServices
  rw [run_ofRun]
  split
  · exact ⟨rfl, rfl⟩
  · exact ⟨rfl, rfl⟩

/-- An asset that was planned is filed. -/
theorem file_atomic (a : Asset) (g : JobGraph) : Atomic (do
    Flow.updateStore (·.createAsset a)
    Pure.pure (a, Work.pipeline a g) : Flow (Asset × Work)) := by
  refine (Atomic.updateStore fun s s' hs => ?_).follow fun _ => follows_pure _
  obtain ⟨_, _, _, _, rfl⟩ := Store.createAsset_eq_ok hs
  exact .same rfl

/-- A request changes the store in one operation, or is refused and changes nothing. -/
theorem flow_atomic (c : Command) : c.flow.Atomic := by
  cases c with
  | createDataset d =>
    refine .map (.follow (.updateStore fun s s' hs => ?_) fun _ => follows_pure _)
    obtain rfl := Store.createDataset_eq_ok hs
    exact .same rfl
  | deleteDataset name =>
    refine .map (.takeFromStore fun s d s' hs => ?_)
    obtain ⟨_, rfl⟩ := Store.deleteDataset_eq_ok hs
    exact .same rfl
  | createVersion q =>
    refine .map (.look looks_drawAssetId fun _ => .look (read _) fun _ => .look (read _) fun _ =>
      .look (check _) fun answer => .follow (.updateStore fun _ _ => Store.retags_createVersion)
        fun _ => ?_)
    split
    · exact (forgetLatest_follows _).bind fun _ => follows_pure _
    · exact follows_pure _
  | setLatest key =>
    exact .map (.follow (.takeFromStore fun _ _ _ => Store.retags_setLatest) fun _ =>
      (forgetLatest_follows _).bind fun _ => follows_pure _)
  | deleteVersion key =>
    refine .map (.follow (.takeFromStore fun _ _ _ => Store.retags_deleteVersion) fun _ => ?_)
    intro w r w' h
    cases h
    exact ⟨⟨_, rfl⟩, rfl, rfl⟩
  | createDefaultAsset key sourceType options =>
    exact .map (.look (bind (read _) fun _ => check _) fun _ => .look looks_drawAssetId fun _ =>
      .look (read _) fun _ => .look (read _) fun _ => .look (check _) fun answer =>
        file_atomic answer.1 answer.2)
  | createAsset key type options =>
    exact .map (.look (bind (read _) fun _ => check _) fun _ => .look looks_drawAssetId fun _ =>
      .look (read _) fun _ => .look (read _) fun _ => .look (read _) fun _ => .look (check _)
        fun answer => file_atomic answer.1 answer.2)
  | deleteAsset id =>
    refine .map (.look (bind (read _) fun _ => check _) fun _ => .look (check _) fun _ =>
      .look (read _) fun _ => .look (check _) fun _ =>
        .follow (.takeFromStore fun s a s' hs => ?_) fun _ => follows_pure _)
    obtain ⟨_, _, rfl⟩ := Store.deleteAsset_eq_ok hs
    exact .same rfl
  | getTask id => exact .map (.of_looks (bind (read _) fun _ => check _))
  | resubmissionCores id current => exact .map (.map (.of_looks (bind (read _) fun _ => check _)))
  | resubmissionProcesses id current =>
    exact .map (.map (.of_looks (bind (read _) fun _ => check _)))

end Command

end GeoAssets
