import GeoAssets.Proofs.Run.Latest
import GeoAssets.Proofs.Run.Removal
import Mathlib.Data.List.Induction

/-!
# What granted requests have done

A request that is granted has done its one operation on the store (`Command.Changes`); one that is
refused has left the store alone. So the request can be told from what has happened to the store: a
version appears only where a caller has asked for it.
-/

namespace GeoAssets

/-- The default asset of a source under the next id, and the graph of its jobs. -/
def World.planSource (w : World) (key : VersionKey) (sourceType : String) (options : Json) :
    Except Error (Asset × JobGraph) :=
  Request.planSource w.settings w.now (w.ids.asset w.ids.assetsDrawn) key sourceType options

/-- The derived asset of a version under the next id, and the graph of its jobs. -/
def World.planDerived (w : World) (key : VersionKey) (type : AssetType) (options : Json) :
    Except Error (Asset × JobGraph) :=
  Request.planDerived w.settings w.now (w.ids.asset w.ids.assetsDrawn) key type options
    (w.store.assetsOf key)

namespace Command

/-! ## Changes -/

/-- The store after a request that was granted. -/
def Changes (w : World) (s : Store) : Command → Prop
  | .createDataset d => w.store.createDataset d = .ok s
  | .deleteDataset name => ∃ d, w.store.deleteDataset name = .ok (d, s)
  | .createVersion q => ∃ a g, w.planSource q.key q.sourceType q.options = .ok (a, g) ∧
    w.store.createVersion (Request.VersionRequest.version q w.now) a = .ok s
  | .setLatest key => ∃ v, w.store.setLatest key = .ok (v, s)
  | .deleteVersion key => ∃ v, w.store.deleteVersion key = .ok (v, s)
  | .createDefaultAsset key sourceType options => ∃ a g,
    w.planSource key sourceType options = .ok (a, g) ∧ w.store.createAsset a = .ok s
  | .createAsset key type options => ∃ a g,
    w.planDerived key type options = .ok (a, g) ∧ w.store.createAsset a = .ok s
  | .deleteAsset id => ∃ a, w.store.deleteAsset id = .ok (a, s)
  | .getTask _ | .resubmissionCores .. | .resubmissionProcesses .. => s = w.store

variable {α : Type} {w w' : World} {work? : Option Work}

theorem run_map_ok {f : Flow α} {g : α → Option Work}
    (h : (g <$> f).run w = (.ok work?, w')) : ∃ a, f.run w = (.ok a, w') ∧ g a = work? := by
  rcases Flow.run_map_cases h with ⟨a, hf, hr⟩ | ⟨_, _, hr⟩
  · cases hr
    exact ⟨a, hf, rfl⟩
  · cases hr

theorem store_of_forgetLatest {key : VersionKey} {r : Except Error Unit}
    (h : (Request.forgetLatest key).run w = (r, w')) : w'.store = w.store :=
  (forgetLatest_follows key w r w' h).2.1

/-- A version is filed with the asset that was planned for it, and an id was drawn. -/
theorem createVersion_run {q : VersionRequest}
    (h : (createVersion q).flow.run w = (.ok work?, w')) :
    (createVersion q).Changes w w'.store ∧ w.ids.assetsDrawn < w'.ids.assetsDrawn := by
  obtain ⟨_, h, _⟩ := run_map_ok h
  unfold Request.createVersion at h
  rw [Flow.run_drawAssetId_bind, Flow.run_read_bind, Flow.run_read_bind] at h
  rcases Flow.run_check_bind_cases h with ⟨⟨a, g⟩, hp, h⟩ | ⟨_, _, hr, _⟩
  swap
  · cases hr
  rcases Flow.run_updateStore_bind_cases h with ⟨s, hs, h⟩ | ⟨_, _, hr, _⟩
  swap
  · cases hr
  -- what follows leaves the store and the ids alone
  split at h
  · rcases Flow.run_bind_cases h with ⟨_, w₂, hg, h⟩ | ⟨_, _, hr⟩
    · cases h
      refine ⟨⟨a, g, hp, ?_⟩, (forgetLatest_cases hg).2.ids.assetsDrawn⟩
      rw [store_of_forgetLatest hg]
      exact hs
    · cases hr
  · cases h
    exact ⟨⟨a, g, hp, hs⟩, Nat.lt_succ_self _⟩

theorem changes_setLatest {key : VersionKey}
    (h : (setLatest key).flow.run w = (.ok work?, w')) : (setLatest key).Changes w w'.store := by
  obtain ⟨_, h, _⟩ := run_map_ok h
  unfold Request.setLatest at h
  rcases Flow.run_takeFromStore_bind_cases h with ⟨v, s, hs, h⟩ | ⟨_, _, hr, _⟩
  · rcases Flow.run_bind_cases h with ⟨_, w₂, hg, h⟩ | ⟨_, _, hr⟩
    · cases h
      rw [store_of_forgetLatest hg]
      exact ⟨_, hs⟩
    · cases hr
  · cases hr

theorem getTask_looks {id : TaskId} {r : Except Error Task}
    (h : (Request.getTask id).run w = (r, w')) : w' = w := by
  cases h
  rfl

/-- What a request has done that was granted. -/
theorem changes_of_run {c : Command} (h : c.flow.run w = (.ok work?, w')) :
    c.Changes w w'.store := by
  cases c with
  | createDataset d =>
    obtain ⟨_, h, _⟩ := run_map_ok h
    unfold Request.createDataset at h
    rcases Flow.run_updateStore_bind_cases h with ⟨s, hs, h⟩ | ⟨_, _, hr, _⟩
    · cases h
      exact hs
    · cases hr
  | deleteDataset name =>
    obtain ⟨_, h, _⟩ := run_map_ok h
    unfold Request.deleteDataset at h
    rcases Flow.run_takeFromStore_cases h with ⟨d, s, hs, _, rfl⟩ | ⟨_, _, hr, _⟩
    · exact ⟨d, hs⟩
    · cases hr
  | createVersion q => exact (createVersion_run h).1
  | setLatest key => exact changes_setLatest h
  | deleteVersion key =>
    obtain ⟨v, s, hs, rfl, _⟩ := deleteVersion_run h
    exact ⟨v, hs⟩
  | createDefaultAsset key sourceType options =>
    obtain ⟨_, h, _⟩ := run_map_ok h
    unfold Request.createDefaultAsset at h
    rw [Flow.run_check_read_bind] at h
    rcases Flow.run_check_bind_cases h with ⟨_, _, h⟩ | ⟨_, _, hr, _⟩
    swap
    · cases hr
    rw [Flow.run_drawAssetId_bind, Flow.run_read_bind, Flow.run_read_bind] at h
    rcases Flow.run_check_bind_cases h with ⟨⟨a, g⟩, hp, h⟩ | ⟨_, _, hr, _⟩
    swap
    · cases hr
    rcases Flow.run_updateStore_bind_cases h with ⟨s, hs, h⟩ | ⟨_, _, hr, _⟩
    · cases h
      exact ⟨a, g, hp, hs⟩
    · cases hr
  | createAsset key type options =>
    obtain ⟨_, h, _⟩ := run_map_ok h
    unfold Request.createAsset at h
    rw [Flow.run_check_read_bind] at h
    rcases Flow.run_check_bind_cases h with ⟨_, _, h⟩ | ⟨_, _, hr, _⟩
    swap
    · cases hr
    rw [Flow.run_drawAssetId_bind, Flow.run_read_bind, Flow.run_read_bind, Flow.run_read_bind] at h
    rcases Flow.run_check_bind_cases h with ⟨⟨a, g⟩, hp, h⟩ | ⟨_, _, hr, _⟩
    swap
    · cases hr
    rcases Flow.run_updateStore_bind_cases h with ⟨s, hs, h⟩ | ⟨_, _, hr, _⟩
    · cases h
      exact ⟨a, g, hp, hs⟩
    · cases hr
  | deleteAsset id =>
    obtain ⟨a, s, hs, rfl⟩ := deleteAsset_run h
    exact ⟨a, hs⟩
  | getTask id =>
    obtain ⟨_, h, _⟩ := run_map_ok h
    exact congrArg World.store (getTask_looks h)
  | resubmissionCores id current =>
    obtain ⟨_, h, _⟩ := run_map_ok h
    exact congrArg World.store (attempts_looks h)
  | resubmissionProcesses id current =>
    obtain ⟨_, h, _⟩ := run_map_ok h
    exact congrArg World.store (attempts_looks h)

/-! ## Operations -/

/-- The operation on the store that a request asks for. -/
inductive Asks : Command → Store.Operation → Prop where
  | createDataset (d : Dataset) : Asks (.createDataset d) (.createDataset d)
  | deleteDataset (name : String) : Asks (.deleteDataset name) (.deleteDataset name)
  | createVersion (q : VersionRequest) (v : Version) (a : Asset) :
    Asks (.createVersion q) (.createVersion v a)
  | setLatest (key : VersionKey) : Asks (.setLatest key) (.setLatest key)
  | deleteVersion (key : VersionKey) : Asks (.deleteVersion key) (.deleteVersion key)
  | createDefaultAsset (key : VersionKey) (sourceType : String) (options : Json) (a : Asset) :
    Asks (.createDefaultAsset key sourceType options) (.createAsset a)
  | createAsset (key : VersionKey) (type : AssetType) (options : Json) (a : Asset) :
    Asks (.createAsset key type options) (.createAsset a)
  | deleteAsset (id : AssetId) : Asks (.deleteAsset id) (.deleteAsset id)

/-- A request performs the operation that it asks for, or none. An id that is drawn for a default
asset has to be new. -/
theorem Changes.performs {c : Command} {s : Store} (h : c.Changes w s)
    (hfresh : ∀ q, c = .createVersion q →
      w.store.assets.get? (w.ids.asset w.ids.assetsDrawn) = none) :
    s = w.store ∨ ∃ op, c.Asks op ∧ w.store.Performs op s := by
  cases c with
  | createDataset d => exact Or.inr ⟨_, .createDataset d, .createDataset h⟩
  | deleteDataset name =>
    obtain ⟨_, hs⟩ := h
    exact Or.inr ⟨_, .deleteDataset name, .deleteDataset hs⟩
  | createVersion q =>
    obtain ⟨a, g, hp, hs⟩ := h
    obtain ⟨hid, hkey, hdefault, hnew, _⟩ := Request.planSource_eq_ok hp
    have hnone := hfresh q rfl
    rw [← hid] at hnone
    exact Or.inr ⟨_, .createVersion q _ a, .createVersion hkey hdefault hnew rfl hnone hs⟩
  | setLatest key =>
    obtain ⟨_, hs⟩ := h
    exact Or.inr ⟨_, .setLatest key, .setLatest hs⟩
  | deleteVersion key =>
    obtain ⟨_, hs⟩ := h
    exact Or.inr ⟨_, .deleteVersion key, .deleteVersion hs⟩
  | createDefaultAsset key sourceType options =>
    obtain ⟨a, g, hp, hs⟩ := h
    obtain ⟨_, _, _, hnew, _⟩ := Request.planSource_eq_ok hp
    exact Or.inr ⟨_, .createDefaultAsset key sourceType options a, .createAsset hnew hs⟩
  | createAsset key type options =>
    obtain ⟨a, g, hp, hs⟩ := h
    obtain ⟨_, hnew, _⟩ := Request.planDerived_eq_ok hp
    exact Or.inr ⟨_, .createAsset key type options a, .createAsset hnew hs⟩
  | deleteAsset id =>
    obtain ⟨_, hs⟩ := h
    exact Or.inr ⟨_, .deleteAsset id, .deleteAsset hs⟩
  | getTask | resubmissionCores | resubmissionProcesses => exact Or.inl h

end Command

/-! ## Answers -/

namespace Orchestrator

/-- A request is granted: its answer is no error. -/
def Grants (o : Orchestrator) (c : Command) : Prop :=
  (o.request c.flow).1.isOk = true

instance (o : Orchestrator) (c : Command) : Decidable (o.Grants c) :=
  inferInstanceAs (Decidable ((o.request c.flow).1.isOk = true))

variable {o : Orchestrator}

theorem grants_iff {c : Command} :
    o.Grants c ↔ ∃ work?, (o.request c.flow).1 = .ok work? := by
  unfold Grants
  generalize (o.request c.flow).1 = r
  constructor
  · intro h
    cases r with
    | error e => cases h
    | ok work? => exact ⟨work?, rfl⟩
  · rintro ⟨work?, rfl⟩
    rfl

/-- A request does what it is there for, or leaves the store alone. -/
theorem handle_command_cases (o : Orchestrator) (c : Command) :
    (o.Grants c ∧ c.Changes o.world (o.handle (.command c)).world.store) ∨
      (¬ o.Grants c ∧ (o.handle (.command c)).world.store = o.world.store) := by
  rcases hr : c.flow.run o.world with ⟨r, w'⟩
  obtain ⟨hanswer, hworld, _⟩ := obey_cases hr
  have hstore : (o.handle (.command c)).world.store = w'.store := congrArg World.store hworld
  rw [hstore]
  cases r with
  | ok work? =>
    left
    exact ⟨grants_iff.mpr ⟨work?, hanswer⟩, Command.changes_of_run hr⟩
  | error e =>
    right
    refine ⟨fun h => ?_, ((c.flow_atomic o.world _ w' hr).refused e rfl).store⟩
    obtain ⟨_, h⟩ := grants_iff.mp h
    rw [hanswer] at h
    cases h

theorem changes_of_grants {c : Command} (h : o.Grants c) :
    c.Changes o.world (o.handle (.command c)).world.store :=
  (o.handle_command_cases c).elim And.right fun hno => absurd h hno.1

/-- The id that is drawn for the default asset of a new version is new. -/
theorem asset_eq_none_of_grants (hs : o.Sound) {q : VersionRequest}
    (hd : (o.handle (.command (.createVersion q))).world.ids.Distinct)
    (h : o.Grants (.createVersion q)) :
    o.world.store.assets.get? (o.world.ids.asset o.world.ids.assetsDrawn) = none := by
  obtain ⟨_, hok⟩ := grants_iff.mp h
  obtain ⟨_, hdrawn⟩ := Command.createVersion_run (obey_of_ok hok).1
  have hnew := (o.handle_extends (.command (.createVersion q))).not_hasDrawnAsset hd
    ⟨_, Nat.le_refl _, hdrawn, rfl⟩
  exact Option.eq_none_iff_forall_ne_some.mpr fun a ha => hnew (hs.world.asset _ a ha)

/-- What a request does to the store is the operation that it asks for, or nothing. -/
theorem handle_command_performs (hs : o.Sound) {c : Command}
    (hd : (o.handle (.command c)).world.ids.Distinct) :
    (o.handle (.command c)).world.store = o.world.store ∨ o.Grants c ∧ ∃ op, c.Asks op ∧
      o.world.store.Performs op (o.handle (.command c)).world.store := by
  rcases o.handle_command_cases c with ⟨hgrants, hc⟩ | ⟨_, hstore⟩
  · refine (hc.performs fun q hq => ?_).imp_right fun hop => ⟨hgrants, hop⟩
    subst hq
    exact asset_eq_none_of_grants hs hd hgrants
  · exact Or.inl hstore

/-! ## Since when -/

/-- What is true after some events and was not before has become true with one of them, and stayed
so ever since. -/
theorem exists_onset {p : Orchestrator → Prop} {es : List Event} (h₀ : ¬ p o)
    (h : p (o.after es)) : ∃ es₁ e es₂, es = es₁ ++ e :: es₂ ∧ ¬ p (o.after es₁) ∧
      ∀ es₃, es₃ <+: es₂ → p (((o.after es₁).handle e).after es₃) := by
  induction es using List.reverseRecOn with
  | nil => exact absurd h h₀
  | append_singleton es e ih =>
    by_cases hes : p (o.after es)
    · obtain ⟨es₁, e', es₂, rfl, hno, hsince⟩ := ih hes
      refine ⟨es₁, e', es₂ ++ [e], by simp, hno, fun es₃ hprefix => ?_⟩
      rcases List.prefix_concat_iff.mp hprefix with rfl | hprefix
      · rw [← after_cons, ← after_append]
        simpa using h
      · exact hsince es₃ hprefix
    · refine ⟨es, e, [], rfl, hes, fun es₃ hprefix => ?_⟩
      rw [List.prefix_nil.mp hprefix, after_nil, ← after_concat]
      exact h

/-! ## New versions -/

/-- Events that are not requests leave the tags of the versions alone. -/
theorem tag?_handle (o : Orchestrator) {e : Event} (he : ∀ c, e ≠ .command c) :
    (o.handle e).world.store.tag? = o.world.store.tag? := by
  have h := o.handle_touches e
  generalize (o.handle e).world = w' at h ⊢
  cases h with
  | @request c => exact absurd rfl (he c)
  | @step _ a _ _ _ hr => exact a.step_keepsTags o.world _ w' hr
  | surround s => exact Store.tag?_eq rfl
  | nothing => rfl

/-- A version appears only where a caller has asked for it. -/
theorem exists_createVersion (o : Orchestrator) (e : Event) {k : VersionKey}
    (hnone : o.world.store.versions.get? k = none) {v : Version}
    (hv : (o.handle e).world.store.versions.get? k = some v) :
    ∃ q, e = .command (.createVersion q) ∧ q.key = k ∧ o.Grants (.createVersion q) := by
  have htag : (o.handle e).world.store.tag? k ≠ o.world.store.tag? k := by
    rw [Store.tag?_eq_none_iff.mpr hnone, Store.tag?, hv]
    exact Option.some_ne_none _
  by_cases hcommand : ∃ c, e = .command c
  swap
  · exact absurd (congrFun (o.tag?_handle fun c hc => hcommand ⟨c, hc⟩) k) htag
  obtain ⟨c, rfl⟩ := hcommand
  rcases o.handle_command_cases c with ⟨hgrants, hc⟩ | ⟨_, hstore⟩
  swap
  · exact absurd (congrFun (congrArg Store.tag? hstore) k) htag
  generalize (o.handle (.command c)).world.store = s at hv htag hc
  have hsame : s.versions ≠ o.world.store.versions := fun h =>
    htag (congrFun (Store.tag?_eq h) k)
  cases c with
  | createVersion q =>
    obtain ⟨a, _, _, hs⟩ := hc
    obtain ⟨_, _, _, rfl⟩ := Store.createVersion_eq_ok hs
    refine ⟨q, rfl, ?_, hgrants⟩
    -- other versions may lose a tag, but none appears
    by_contra hk
    change (Directory.insert _ q.key _).get? k = some v at hv
    rw [Directory.get?_insert_of_ne hk] at hv
    split at hv
    · obtain ⟨u, hu, _⟩ := (Store.demoteOthers_revises _ _).exists_version hv
      rw [hnone] at hu
      cases hu
    · rw [hnone] at hv
      cases hv
  | setLatest key =>
    obtain ⟨u, hs⟩ := hc
    obtain ⟨_, hrevises⟩ := Store.setLatest_revises hs
    obtain ⟨w, hw, _⟩ := hrevises.exists_version hv
    rw [hnone] at hw
    cases hw
  | deleteVersion key =>
    obtain ⟨u, hs⟩ := hc
    obtain ⟨_, _, rfl⟩ := Store.deleteVersion_eq hs
    change (Directory.erase _ key).get? k = some v at hv
    rw [Store.versions_foldl_removeAsset, Directory.get?_erase, hnone, ite_self] at hv
    cases hv
  | createDataset d =>
    obtain rfl := Store.createDataset_eq_ok hc
    exact absurd rfl hsame
  | deleteDataset name =>
    obtain ⟨d, hs⟩ := hc
    obtain ⟨_, rfl⟩ := Store.deleteDataset_eq_ok hs
    exact absurd rfl hsame
  | createDefaultAsset | createAsset =>
    obtain ⟨a, _, _, hs⟩ := hc
    obtain ⟨_, _, _, _, rfl⟩ := Store.createAsset_eq_ok hs
    exact absurd rfl hsame
  | deleteAsset id =>
    obtain ⟨a, hs⟩ := hc
    obtain ⟨_, _, rfl⟩ := Store.deleteAsset_eq_ok hs
    exact absurd rfl hsame
  | getTask | resubmissionCores | resubmissionProcesses => exact absurd (congrArg _ hc) hsame

end Orchestrator

end GeoAssets
