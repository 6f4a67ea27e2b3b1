import GeoAssets.Plan.Basic
import GeoAssets.Proofs.Compute.Graph
import GeoAssets.Proofs.Lifecycle.Step
import GeoAssets.Proofs.Run.Basic

/-!
# What requests do

A request performs at most one operation on the store. If it files an asset, the pipeline of the
asset goes on after it, with the jobs of a plan, whose names are distinct.
-/

namespace GeoAssets

/-! ## Plans -/

/-- The jobs of a plan have distinct names. -/
theorem Plan.names_nodup {b : Plan.Brief} {g : JobGraph} (h : Plan.build b = .ok g) :
    (g.jobs.map (·.name)).Nodup := by
  simp only [Plan.build, bind_eq_ok_iff] at h
  obtain ⟨_, _, _, _, _, _, jobs, _, g', hg, _, _, h⟩ := h
  cases h
  unfold JobGraph.ofJobs at hg
  split at hg
  · cases hg
  · next hrep =>
    split at hg
    · cases hg
    · split at hg
      · cases hg
        exact (JobGraph.firstRepeated?_eq_none_iff.mp hrep).1
      · cases hg

/-! ## New assets -/

namespace Request

theorem defaultAsset_eq_ok {settings : Settings} {now : Timestamp} {id : AssetId}
    {key : VersionKey} {options : CreationOptions} {a : Asset}
    (h : defaultAsset settings now id key options = .ok a) :
    a.id = id ∧ a.key = key ∧ a.isDefault = true ∧ a.IsNew := by
  simp only [defaultAsset, bind_eq_ok_iff] at h
  obtain ⟨_, _, _, _, h⟩ := h
  cases h
  exact ⟨rfl, rfl, rfl, rfl, rfl, rfl⟩

theorem planSource_eq_ok {settings : Settings} {now : Timestamp} {id : AssetId}
    {key : VersionKey} {sourceType : String} {options : Json} {a : Asset} {g : JobGraph}
    (h : planSource settings now id key sourceType options = .ok (a, g)) :
    a.id = id ∧ a.key = key ∧ a.isDefault = true ∧ a.IsNew ∧ (g.jobs.map (·.name)).Nodup := by
  simp only [planSource, bind_eq_ok_iff] at h
  obtain ⟨_, _, a', ha, g', hg, h⟩ := h
  cases h
  obtain ⟨hid, hkey, hdefault, hnew⟩ := defaultAsset_eq_ok ha
  exact ⟨hid, hkey, hdefault, hnew, Plan.names_nodup hg⟩

theorem planDerived_eq_ok {settings : Settings} {now : Timestamp} {id : AssetId}
    {key : VersionKey} {type : AssetType} {options : Json} {siblings : List Asset} {a : Asset}
    {g : JobGraph} (h : planDerived settings now id key type options siblings = .ok (a, g)) :
    a.id = id ∧ a.IsNew ∧ (g.jobs.map (·.name)).Nodup := by
  simp only [planDerived, bind_eq_ok_iff] at h
  obtain ⟨_, _, _, _, g', hg, h⟩ := h
  cases h
  exact ⟨rfl, ⟨rfl, rfl, rfl⟩, Plan.names_nodup hg⟩

end Request

/-! ## The cases -/

namespace Command

/-- What a request does to the store, and the work that goes on after it. -/
inductive Obeys : List Store.Operation → Option Work → Prop where
  | nothing : Obeys [] none
  | changes {op : Store.Operation} {work? : Option Work} (hop : op.isRequest = true)
    (hfiles : op.files? = none)
    (hwork : ∀ work, work? = some work → ∃ actions, work.activity = .tearDown actions none) :
    Obeys [op] work?
  | creates {op : Store.Operation} {a : Asset} {g : JobGraph} (hop : op.isRequest = true)
    (hfiles : op.files? = some a) (hnew : a.IsNew) (hnames : (g.jobs.map (·.name)).Nodup) :
    Obeys [op] (some (.pipeline a g))

/-- A request leaves the assets that are there alone. -/
theorem Obeys.onAsset {ops : List Store.Operation} {work? : Option Work} (h : Obeys ops work?)
    (x : AssetId) (a : Asset) :
    ops.foldl (fun a (op : Store.Operation) => op.onAsset x a) a = a := by
  cases h with
  | nothing => rfl
  | changes hop | creates hop => exact Store.Operation.onAsset_of_isRequest hop x a

theorem Obeys.onTasks {ops : List Store.Operation} {work? : Option Work} (h : Obeys ops work?)
    (x : AssetId) (ts : List Task) :
    ops.foldl (fun ts (op : Store.Operation) => op.onTasks x ts) ts = ts := by
  cases h with
  | nothing => rfl
  | changes hop | creates hop => exact Store.Operation.onTasks_of_isRequest hop x ts

/-- The work of an answer. -/
def work? : Except Error (Option Work) → Option Work
  | .ok work? => work?
  | .error _ => none

/-- What a program does, and the work that it leaves. -/
def Does (f : Flow (Option Work)) (w : World) : Prop :=
  ∀ r w', f.run w = (r, w') → w'.ids.Distinct →
    ∃ ops, Obeys ops (work? r) ∧ w.Evolves ops w'

variable {α : Type} {w w' : World}

theorem forgetLatest_cases {key : VersionKey} {r : Except Error Unit}
    (h : (Request.forgetLatest key).run w = (r, w')) : r = .ok () ∧ w.Evolves [] w' := by
  unfold Request.forgetLatest at h
  rw [Flow.run_read_bind, Flow.run_attempt_bind] at h
  unfold Flow.updateServices at h
  rw [Flow.run_ofRun] at h
  split at h
  · cases h
    exact ⟨rfl, .of_eq rfl rfl rfl⟩
  · cases h
    exact ⟨rfl, .refl w⟩

theorem does_map {f : Flow α} {g : α → Option Work} (h : ∀ r w', f.run w = (r, w') →
    w'.ids.Distinct → ∃ ops, Obeys ops (work? (r.map g)) ∧ w.Evolves ops w') :
    Does (g <$> f) w := by
  intro r w' hr hd
  rcases Flow.run_map_cases hr with ⟨a, hf, rfl⟩ | ⟨e, hf, rfl⟩
  · exact h _ w' hf hd
  · exact h _ w' hf hd

/-- A request that changes the store in one operation and leaves no work. -/
theorem obeys_change {op : Store.Operation} {s : Store} (h : w.store.Performs op s)
    (hop : op.isRequest = true) (hfiles : op.files? = none) :
    Obeys [op] none ∧ w.Evolves [op] { w with store := s } := by
  refine ⟨.changes hop hfiles ?_, .perform h hfiles ?_ ?_⟩
  · intro work hwork
    cases hwork
  · cases h <;> first | rfl | cases hop
  · cases h <;> first | rfl | cases hop

/-! ## Requests for datasets and versions -/

theorem createDataset_does (d : Dataset) : Does (createDataset d).flow w := by
  refine does_map fun r w' h _ => ?_
  unfold Request.createDataset at h
  rcases Flow.run_updateStore_bind_cases h with ⟨s, hs, h⟩ | ⟨e, _, rfl, rfl⟩
  · cases h
    exact ⟨_, obeys_change (.createDataset hs) rfl rfl⟩
  · exact ⟨[], .nothing, .refl w'⟩

theorem deleteDataset_does (name : String) : Does (deleteDataset name).flow w := by
  refine does_map fun r w' h _ => ?_
  unfold Request.deleteDataset at h
  rcases Flow.run_takeFromStore_cases h with ⟨d, s, hs, rfl, rfl⟩ | ⟨e, _, rfl, rfl⟩
  · exact ⟨_, obeys_change (.deleteDataset hs) rfl rfl⟩
  · exact ⟨[], .nothing, .refl w'⟩

theorem setLatest_does (key : VersionKey) : Does (setLatest key).flow w := by
  refine does_map fun r w' h _ => ?_
  unfold Request.setLatest at h
  rcases Flow.run_takeFromStore_bind_cases h with ⟨v, s, hs, h⟩ | ⟨e, _, rfl, rfl⟩
  · obtain ⟨hobeys, he⟩ := obeys_change (.setLatest hs) rfl rfl
    rcases Flow.run_bind_cases h with ⟨_, w₂, hg, h⟩ | ⟨e, hg, rfl⟩
    · cases h
      exact ⟨_, hobeys, he.trans (forgetLatest_cases hg).2⟩
    · cases (forgetLatest_cases hg).1
  · exact ⟨[], .nothing, .refl w'⟩

theorem deleteVersion_does (key : VersionKey) : Does (deleteVersion key).flow w := by
  refine does_map fun r w' h _ => ?_
  unfold Request.deleteVersion at h
  rcases Flow.run_takeFromStore_bind_cases h with ⟨v, s, hs, h⟩ | ⟨e, _, rfl, rfl⟩
  · cases h
    refine ⟨_, .changes rfl rfl ?_, (obeys_change (.deleteVersion hs) rfl rfl).2⟩
    intro work hwork
    cases hwork
    exact ⟨_, rfl⟩
  · exact ⟨[], .nothing, .refl w'⟩

/-- A version is filed with its default asset under an id that nobody had before. -/
theorem createVersion_does (hw : w.Sound) (q : VersionRequest) :
    Does (createVersion q).flow w := by
  refine does_map fun r w' h hd => ?_
  unfold Request.createVersion at h
  rw [Flow.run_drawAssetId_bind, Flow.run_read_bind, Flow.run_read_bind] at h
  rcases Flow.run_check_bind_cases h with ⟨⟨a, g⟩, hp, h⟩ | ⟨e, _, rfl, rfl⟩
  swap
  · exact ⟨[], .nothing, .drawAsset w⟩
  obtain ⟨hid, hkey, hdefault, hnew, hnames⟩ := Request.planSource_eq_ok hp
  rcases Flow.run_updateStore_bind_cases h with ⟨s, hs, h⟩ | ⟨e, _, rfl, rfl⟩
  swap
  · exact ⟨[], .nothing, .drawAsset w⟩
  -- what follows changes neither the ids nor the store
  obtain ⟨rfl, he'⟩ : r = .ok (Request.VersionRequest.version q w.now, .pipeline a g) ∧
      World.Evolves { w with
        ids := { w.ids with assetsDrawn := w.ids.assetsDrawn + 1 }, store := s } [] w' := by
    split at h
    · rcases Flow.run_bind_cases h with ⟨_, w₂, hg, h⟩ | ⟨e, hg, _⟩
      · cases h
        exact ⟨rfl, (forgetLatest_cases hg).2⟩
      · cases (forgetLatest_cases hg).1
    · cases h
      exact ⟨rfl, .refl _⟩
  have hnone : w.store.assets.get? a.id = none := by
    cases ha : w.store.assets.get? a.id with
    | none => rfl
    | some b =>
      have hids : w.ids.Extends w'.ids :=
        (World.Evolves.drawAsset w).ids.trans he'.ids
      refine absurd (hw.asset _ b ha) (hids.not_hasDrawnAsset hd ?_)
      exact ⟨_, Nat.le_refl _, he'.ids.assetsDrawn, hid.symm⟩
  have hperf : w.store.Performs (.createVersion (Request.VersionRequest.version q w.now) a) s :=
    .createVersion hkey hdefault hnew rfl hnone hs
  exact ⟨_, .creates rfl rfl hnew hnames, (World.Evolves.fileDrawn hperf rfl hid).trans he'⟩

/-! ## Requests for assets -/

/-- An asset that was planned is filed, or the request changes nothing. -/
theorem file_does {a : Asset} {g : JobGraph} {r : Except Error (Asset × Work)} {w₁ : World}
    (hw₁ : w₁ = { w with ids := { w.ids with assetsDrawn := w.ids.assetsDrawn + 1 } })
    (hid : a.id = w.ids.asset w.ids.assetsDrawn) (hnew : a.IsNew)
    (hnames : (g.jobs.map (·.name)).Nodup)
    (h : (do
      Flow.updateStore (·.createAsset a)
      pure (a, Work.pipeline a g) : Flow (Asset × Work)).run w₁ = (r, w')) :
    ∃ ops, Obeys ops (work? (r.map fun answer => some answer.2)) ∧ w.Evolves ops w' := by
  subst hw₁
  rcases Flow.run_updateStore_bind_cases h with ⟨s, hs, h⟩ | ⟨e, _, rfl, rfl⟩
  · cases h
    have hperf : w.store.Performs (.createAsset a) s := .createAsset hnew hs
    exact ⟨_, .creates rfl rfl hnew hnames, .fileDrawn hperf rfl hid⟩
  · exact ⟨[], .nothing, .drawAsset w⟩

theorem createDefaultAsset_does (key : VersionKey) (sourceType : String) (options : Json) :
    Does (createDefaultAsset key sourceType options).flow w := by
  refine does_map fun r w' h _ => ?_
  unfold Request.createDefaultAsset at h
  rw [Flow.run_check_read_bind] at h
  rcases Flow.run_check_bind_cases h with ⟨_, _, h⟩ | ⟨e, _, rfl, rfl⟩
  swap
  · exact ⟨[], .nothing, .refl w'⟩
  rw [Flow.run_drawAssetId_bind, Flow.run_read_bind, Flow.run_read_bind] at h
  rcases Flow.run_check_bind_cases h with ⟨⟨a, g⟩, hp, h⟩ | ⟨e, _, rfl, rfl⟩
  · obtain ⟨hid, _, _, hnew, hnames⟩ := Request.planSource_eq_ok hp
    exact file_does rfl hid hnew hnames h
  · exact ⟨[], .nothing, .drawAsset w⟩

theorem createAsset_does (key : VersionKey) (type : AssetType) (options : Json) :
    Does (createAsset key type options).flow w := by
  refine does_map fun r w' h _ => ?_
  unfold Request.createAsset at h
  rw [Flow.run_check_read_bind] at h
  rcases Flow.run_check_bind_cases h with ⟨_, _, h⟩ | ⟨e, _, rfl, rfl⟩
  swap
  · exact ⟨[], .nothing, .refl w'⟩
  rw [Flow.run_drawAssetId_bind, Flow.run_read_bind, Flow.run_read_bind, Flow.run_read_bind] at h
  rcases Flow.run_check_bind_cases h with ⟨⟨a, g⟩, hp, h⟩ | ⟨e, _, rfl, rfl⟩
  · obtain ⟨hid, hnew, hnames⟩ := Request.planDerived_eq_ok hp
    exact file_does rfl hid hnew hnames h
  · exact ⟨[], .nothing, .drawAsset w⟩

theorem deleteAsset_does (id : AssetId) : Does (deleteAsset id).flow w := by
  refine does_map fun r w' h _ => ?_
  unfold Request.deleteAsset at h
  rw [Flow.run_check_read_bind] at h
  rcases Flow.run_check_bind_cases h with ⟨a, _, h⟩ | ⟨e, _, rfl, rfl⟩
  swap
  · exact ⟨[], .nothing, .refl w'⟩
  rcases Flow.run_check_bind_cases h with ⟨_, _, h⟩ | ⟨e, _, rfl, rfl⟩
  swap
  · exact ⟨[], .nothing, .refl w'⟩
  rw [Flow.run_read_bind] at h
  rcases Flow.run_check_bind_cases h with ⟨actions, _, h⟩ | ⟨e, _, rfl, rfl⟩
  swap
  · exact ⟨[], .nothing, .refl w'⟩
  rcases Flow.run_takeFromStore_bind_cases h with ⟨b, s, hs, h⟩ | ⟨e, _, rfl, rfl⟩
  · cases h
    refine ⟨_, .changes rfl rfl ?_, (obeys_change (.deleteAsset hs) rfl rfl).2⟩
    intro work hwork
    cases hwork
    exact ⟨_, rfl⟩
  · exact ⟨[], .nothing, .refl w'⟩

/-! ## All requests -/

/-- A program that only looks. -/
theorem look_does {f : Flow α} (hf : ∀ r w', f.run w = (r, w') → w' = w) :
    Does ((fun _ => none) <$> f) w := by
  refine does_map fun r w' h _ => ?_
  obtain rfl := hf r w' h
  refine ⟨[], ?_, .refl w'⟩
  cases r with
  | error e => exact .nothing
  | ok a => exact .nothing

theorem attempts_looks {id : TaskId} {f : List JobAttempt → α} {r : Except Error α}
    (h : (f <$> Request.attempts id).run w = (r, w')) : w' = w := by
  have hlook : ∀ {r w'}, (Request.attempts id).run w = (r, w') → w' = w := by
    intro r w' h
    cases h
    rfl
  rcases Flow.run_map_cases h with ⟨_, hf, _⟩ | ⟨_, hf, _⟩
  · exact hlook hf
  · exact hlook hf

/-- What a request does, whatever it is. -/
theorem flow_does (hw : w.Sound) (c : Command) : Does c.flow w := by
  cases c with
  | createDataset d => exact createDataset_does d
  | deleteDataset name => exact deleteDataset_does name
  | createVersion q => exact createVersion_does hw q
  | setLatest key => exact setLatest_does key
  | deleteVersion key => exact deleteVersion_does key
  | createDefaultAsset key sourceType options =>
    exact createDefaultAsset_does key sourceType options
  | createAsset key type options => exact createAsset_does key type options
  | deleteAsset id => exact deleteAsset_does id
  | getTask id =>
    refine look_does fun r w' h => ?_
    cases h
    rfl
  | resubmissionCores id current => exact look_does fun _ _ h => attempts_looks h
  | resubmissionProcesses id current => exact look_does fun _ _ h => attempts_looks h

end Command

end GeoAssets
