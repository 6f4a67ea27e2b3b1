import GeoAssets.Proofs.Catalog.Removal
import GeoAssets.Proofs.Run.Invariant
import GeoAssets.Proofs.Run.Refused
import GeoAssets.Proofs.Run.Teardown

/-!
# What is deleted is gone, and nothing else

Deleting a version or an asset takes it out of the store with its places and tasks, and out of
nothing else. Reports of the tasks find nothing from then on, and the places can be used again. The
content of a deleted version is removed in the background, and no other content is.
-/

namespace GeoAssets

/-! ## Requests -/

namespace Command

variable {w w' : World} {work? : Option Work}

theorem deleteVersion_run {key : VersionKey}
    (h : (deleteVersion key).flow.run w = (.ok work?, w')) : ∃ v s,
      w.store.deleteVersion key = .ok (v, s) ∧ w' = { w with store := s } ∧
        work? = some (.versionTeardown w.settings key) := by
  rcases Flow.run_map_cases h with ⟨answer, hf, hr⟩ | ⟨_, _, hr⟩
  · cases hr
    unfold Request.deleteVersion at hf
    rcases Flow.run_takeFromStore_bind_cases hf with ⟨v, s, hs, hf⟩ | ⟨_, _, hr, _⟩
    · cases hf
      exact ⟨v, s, hs, rfl, rfl⟩
    · cases hr
  · cases hr

theorem deleteAsset_run {id : AssetId}
    (h : (deleteAsset id).flow.run w = (.ok work?, w')) : ∃ a s,
      w.store.deleteAsset id = .ok (a, s) ∧ w' = { w with store := s } := by
  rcases Flow.run_map_cases h with ⟨answer, hf, hr⟩ | ⟨_, _, hr⟩
  · cases hr
    unfold Request.deleteAsset at hf
    rw [Flow.run_check_read_bind] at hf
    rcases Flow.run_check_bind_cases hf with ⟨_, _, hf⟩ | ⟨_, _, hr, _⟩
    swap
    · cases hr
    rcases Flow.run_check_bind_cases hf with ⟨_, _, hf⟩ | ⟨_, _, hr, _⟩
    swap
    · cases hr
    rw [Flow.run_read_bind] at hf
    rcases Flow.run_check_bind_cases hf with ⟨_, _, hf⟩ | ⟨_, _, hr, _⟩
    swap
    · cases hr
    rcases Flow.run_takeFromStore_bind_cases hf with ⟨a, s, hs, hf⟩ | ⟨_, _, hr, _⟩
    · cases hf
      exact ⟨a, s, hs, rfl⟩
    · cases hr
  · cases hr

end Command

/-! ## Reports of tasks that do not exist -/

namespace Activity

variable {w : World} {task : TaskId}

/-- The error of a report of a task that does not exist. A report that does not end a task is
refused before the task is looked for. -/
def unknownTask (task : TaskId) (entry : LogEntry) : Error :=
  if entry.progress.isTerminal then .taskNotFound task else notFinal entry.progress

/-- A report of a task that does not exist is refused. -/
theorem receive_step_of_none (h : w.store.tasks.get? task = none) (entry : LogEntry) :
    ∃ w', (receive task entry).step.run w = (.error (unknownTask task entry), w') := by
  rw [step_run_of_unknown rfl]
  show ∃ w', (receiveReport task entry).run w = _
  unfold receiveReport unknownTask
  cases entry.progress.isTerminal with
  | false => exact ⟨w, rfl⟩
  | true =>
    have htask : w.store.task task = .error (.taskNotFound task) := by
      rw [Store.task, h]
      rfl
    refine ⟨w.measure (.taskReported entry.progress), ?_⟩
    show ((Flow.check =<< Flow.read (·.store.task task)) >>= _ : Flow Next).run
      (w.measure (.taskReported entry.progress)) = _
    rw [Flow.run_check_read_bind]
    show (Flow.check (w.store.task task) >>= _ : Flow Next).run _ = _
    rw [htask]
    rfl

/-- A report of a task that was removed meanwhile is refused. -/
theorem record_step_of_none (h : w.store.tasks.get? task = none) (asset : AssetId)
    (entry : LogEntry) :
    (record asset task entry).step.run w = (.error (.taskNotFound task), w) := by
  have happend : w.store.appendTaskLog task entry = .error (.taskNotFound task) := by
    rw [Store.appendTaskLog, Store.task, h]
    rfl
  rw [step_run_of_unknown rfl]
  show (recordReport task entry).run w = _
  rcases hr : (recordReport task entry).run w with ⟨r, w'⟩
  rcases Flow.run_takeFromStore_bind_cases hr with ⟨t, s, hs, _⟩ | ⟨e, hs, rfl, rfl⟩
  · rw [happend] at hs
    cases hs
  · rw [happend] at hs
    cases hs
    rfl

end Activity

namespace Orchestrator

variable {o o' : Orchestrator} {n : Nat} {task : TaskId}

/-- Whoever reports a task is told that it does not exist, and nothing changes. -/
structure Forgets (o : Orchestrator) (task : TaskId) : Prop where
  /-- A report that is made and taken up. -/
  report : ∀ entry, (o.reportedAlone task entry 1).endingAt o.background.started =
      some (.returned (.error (Activity.unknownTask task entry))) ∧
    o.UnchangedBut o.background.started (o.reportedAlone task entry 1)
  /-- A report that was made before. -/
  received : ∀ n entry, o.workAt n = some (.receive task entry) →
    (o.advance n).endingAt n = some (.returned (.error (Activity.unknownTask task entry))) ∧
      o.UnchangedBut n (o.advance n)
  /-- A report whose asset was looked up before; it waits if somebody else holds the lock. -/
  recorded : ∀ n asset entry, o.workAt n = some (.record asset task entry) →
    ((o.advance n).endingAt n = some (.returned (.error (.taskNotFound task))) ∨
      (o.advance n).workAt n = some (.record asset task entry)) ∧ o.UnchangedBut n (o.advance n)

/-- A report that is taken up where its task does not exist. -/
theorem received_of_none (h : o.world.store.tasks.get? task = none) {entry : LogEntry}
    (hwork : o.workAt n = some (.receive task entry)) :
    (o.advance n).endingAt n = some (.returned (.error (Activity.unknownTask task entry))) ∧
      o.UnchangedBut n (o.advance n) := by
  obtain ⟨w', hr⟩ := Activity.receive_step_of_none h entry
  obtain ⟨hworld, _, hending⟩ := takeStep_self hwork hr
  rw [← advance_of_unlocked hwork rfl] at hworld hending
  refine ⟨hending, advance_unchanged ?_⟩
  rw [hworld]
  exact Activity.receive_looks task entry o.world _ w' hr

/-- A task that does not exist is forgotten. -/
theorem Numbered.forgets (ho : o.Numbered) (h : o.world.store.tasks.get? task = none) :
    o.Forgets task where
  report := fun entry => by
    have hwork : (o.handle (.report task entry)).workAt o.background.started =
        some (.receive task entry) :=
      (workAt_start o _ false _ o.world o.locks _).trans (if_pos rfl)
    have hnone : (o.handle (.report task entry)).world.store.tasks.get? task = none := h
    obtain ⟨hending, hunchanged⟩ := received_of_none hnone hwork
    exact ⟨hending, (ho.report task entry).2.trans hunchanged⟩
  received := fun _ _ hwork => received_of_none h hwork
  recorded := fun n asset entry hwork => by
    rcases o.advance_self n with ⟨a, r, ha, hr, _, hending⟩ | ⟨hworld, hwork', _⟩
    · rw [hwork] at ha
      cases ha
      rw [Activity.record_step_of_none h asset entry, Prod.mk.injEq] at hr
      obtain ⟨rfl, hworld⟩ := hr
      refine ⟨Or.inl hending, advance_unchanged ?_⟩
      rw [← hworld]
      exact World.Order.refl _
    · refine ⟨Or.inr (hwork'.trans hwork), advance_unchanged ?_⟩
      rw [hworld]
      exact World.Order.refl _

/-! ## Deletions -/

/-- Some assets are gone from a state on. -/
structure Removes (o : Orchestrator) (gone : AssetId → Bool) (o' : Orchestrator) : Prop where
  store : o.world.store.Without gone o'.world.store
  /-- Nothing but the store has changed. -/
  world : o'.world = { o.world with store := o'.world.store }
  /-- The places of the assets can be used again. -/
  places : ∀ x a, o.world.store.assets.get? x = some a → gone x = true →
    o'.world.store.IsFree a.uri
  /-- The assets do not come back. -/
  assets : ∀ es, (o'.after es).world.ids.Distinct → ∀ x a,
    o.world.store.assets.get? x = some a → gone x = true →
    (o'.after es).world.store.assets.get? x = none
  /-- Reports of their tasks fail, however much later, and change nothing. -/
  reports : ∀ es, (o'.after es).world.ids.Distinct → ∀ id t,
    o.world.store.tasks.get? id = some t → gone t.asset = true → (o'.after es).Forgets id

/-- A piece removes the content of a version from a state on. -/
structure RemovesContent (o : Orchestrator) (n : Nat) (settings : Settings) (key : VersionKey) :
    Prop where
  work : o.workAt n = some (.tearDown (Teardown.ofVersion settings key) none)
  /-- If it goes on by itself and the services are in order, it removes the table and the objects of
  the version, and changes nothing else but counters. -/
  alone : ∀ es, (o.after es).workAt n = some (.tearDown (Teardown.ofVersion settings key) none) →
    (o.after es).world.services.IsUp →
    let o₁ := o.after es
    let o₂ := o₁.after (List.replicate 5 (.advance n))
    o₂.endingAt n = some (.returned (.ok .done)) ∧
      o₂.world.services.database.tables.entries = (o₁.world.services.database.tables.entries.filter
        fun e => e.1 ≠ (key.dataset, key.version)) ∧
      o₂.world.services.objects.objects = (o₁.world.services.objects.objects.filter
        fun object => !Teardown.isContent settings key object) ∧
      o₂.world = { o₁.world with
        services := o₂.world.services
        measurements := o₂.world.measurements }
  /-- Whatever goes on between its steps, none of them touches other tables or other objects. -/
  spares : ∀ es, (∀ table, table ≠ (key.dataset, key.version) →
      ((o.after es).advance n).world.services.database.tables.get? table =
        (o.after es).world.services.database.tables.get? table) ∧
    ∀ object, Teardown.isContent settings key object = false →
      (object ∈ ((o.after es).advance n).world.services.objects.objects ↔
        object ∈ (o.after es).world.services.objects.objects)
  /-- Once it has ended without an error, nothing of the version is left, unless the surroundings
  have brought it in meanwhile. -/
  cleared : ∀ es answer, (o.after es).endingAt n = some (.returned (.ok answer)) →
    (∀ es₁ s es₂, es = es₁ ++ .surround s :: es₂ → (o.after es₁).world.services.AddsNone
      (Teardown.ofVersion settings key) s.services) →
    (o.after es).world.services.database.tables.get? (key.dataset, key.version) = none ∧
      ∀ object ∈ (o.after es).world.services.objects.objects,
        Teardown.isContent settings key object = false

/-- What is deleted in a state is gone, and nothing else. -/
structure DeletesCleanly (o : Orchestrator) : Prop where
  version : ∀ key work?, (o.request (Command.deleteVersion key).flow).1 = .ok work? →
    let o' := o.handle (.command (.deleteVersion key))
    (∃ v, o.world.store.versions.get? key = some v) ∧
      o'.world.store.versions.entries =
        (o.world.store.versions.entries.filter fun e => e.1 ≠ key) ∧
      o.Removes (o.world.store.isOf key) o' ∧
      o'.RemovesContent o.background.started o.world.settings key
  asset : ∀ id work?, (o.request (Command.deleteAsset id).flow).1 = .ok work? →
    let o' := o.handle (.command (.deleteAsset id))
    (∃ a, o.world.store.assets.get? id = some a ∧ a.isDefault = false) ∧
      o'.world.store.versions = o.world.store.versions ∧
      o.Removes (fun x => decide (x = id)) o'

/-! ## What follows from a deletion -/

/-- A request that is accepted, and the work that it starts. -/
theorem obey_of_ok {c : Command} {work? : Option Work}
    (h : (o.request c.flow).1 = .ok work?) :
    c.flow.run o.world = (.ok work?, (o.handle (.command c)).world) ∧
      ∀ work, work? = some work →
        (o.handle (.command c)).workAt o.background.started = some work.activity ∧
          (o.handle (.command c)).background.started = o.background.started + 1 := by
  rcases hr : c.flow.run o.world with ⟨r, w'⟩
  obtain ⟨hanswer, hworld, hwork⟩ := obey_cases hr
  rw [h] at hanswer
  subst hanswer
  refine ⟨by rw [← hworld]; rfl, ?_⟩
  rintro work rfl
  rcases hwork with ⟨_, hsome, hwork, hstarted⟩ | ⟨hnone, _⟩
  · cases hsome
    exact ⟨(hwork _).trans (if_pos rfl), hstarted⟩
  · cases hnone

/-- The content of a deleted version is removed in the background. -/
theorem workAt_deleteVersion {key : VersionKey} {work? : Option Work}
    (h : (o.request (Command.deleteVersion key).flow).1 = .ok work?) :
    (o.handle (.command (.deleteVersion key))).workAt o.background.started =
      some (.tearDown (Teardown.ofVersion o.world.settings key) none) := by
  obtain ⟨hrun, hwork⟩ := obey_of_ok h
  obtain ⟨_, _, _, _, rfl⟩ := Command.deleteVersion_run hrun
  exact (hwork _ rfl).1

/-- What a deletion takes out of the store is gone for good. -/
theorem removes_of_without (hs : o.Sound) (hs' : o'.Sound) (ho' : o'.Numbered)
    (ht : o.world.store.Tidy) {gone : AssetId → Bool}
    (hgone : o.world.store.Without gone o'.world.store)
    (hworld : o'.world = { o.world with store := o'.world.store }) : o.Removes gone o' where
  store := hgone
  world := hworld
  places := fun x a ha hx =>
    Store.isFree_of_none (hgone.place_eq_none hs.world.wellFormed ht ha hx)
  assets := fun es hd x a ha hx => by
    refine eq_none_after hs' hd ?_ ?_
    · rw [hworld]
      exact hs.world.asset x a ha
    · rw [hgone.get?_assets, if_pos hx]
  reports := fun es hd id t htask hx => by
    refine (numbered_after ho' es).forgets (task_eq_none_after hs' hd ?_ ?_)
    · rw [hworld]
      exact hs.world.task id t htask
    · rw [hgone.get?_tasks ht, htask]
      exact Option.filter_some_neg (by simp [hx])

/-- A request that takes nothing but some assets out of the store. -/
theorem removes_handle (hs : o.Sound) (hd : o.world.ids.Distinct) (ho : o.Numbered)
    (ht : o.world.store.Tidy) {c : Command} {s : Store} {gone : AssetId → Bool}
    (hgone : o.world.store.Without gone s)
    (hworld : (o.handle (.command c)).world = { o.world with store := s }) :
    o.Removes gone (o.handle (.command c)) := by
  have hs' := hs.handle (.command c) (by rw [hworld]; exact hd)
  have hstore : (o.handle (.command c)).world.store = s := by rw [hworld]
  rw [← hstore] at hgone hworld
  exact removes_of_without hs hs' (ho.handle (.command c)) ht hgone hworld

/-- A piece that was started with the content of a version before it. -/
theorem removesContent_of_work {settings : Settings} {key : VersionKey}
    (hn : n < o.background.started) (hending : o.endingAt n = none)
    (hwork : o.workAt n = some (.tearDown (Teardown.ofVersion settings key) none)) :
    o.RemovesContent n settings key where
  work := hwork
  alone := fun es hwork hup => by
    obtain ⟨hending, hcleared, hsame⟩ := tornDown_alone hup hwork
    refine ⟨hending, ?_, ?_, hsame⟩
    · refine hcleared.tables.trans (List.filter_congr fun e _ => ?_)
      rw [Teardown.any_drops_ofVersion, Bool.eq_iff_iff]
      simp
    · refine hcleared.objects.trans (List.filter_congr fun object _ => ?_)
      rw [Teardown.any_deletes_ofVersion]
  spares := fun es => by
    -- the surroundings may bring in what they like
    have htears : o.TearsDown n (Teardown.ofVersion settings key) False :=
      .underway (List.nil_append _) hwork hending nofun
    obtain ⟨_, taken, hsub, hcleared, _⟩ := (htears.after hn es nofun).advance
    constructor
    · intro table hne
      have hno : (Teardown.ofVersion settings key).any (·.drops table) = false := by
        rw [Teardown.any_drops_ofVersion]
        exact beq_false_of_ne hne
      rw [hcleared.get?_tables, if_neg]
      rw [Bool.not_eq_true, List.any_eq_false]
      exact fun action haction => List.any_eq_false.mp hno action (hsub haction)
    · intro object hno
      rw [← Teardown.any_deletes_ofVersion] at hno
      rw [hcleared.mem_objects_iff]
      refine and_iff_left fun action haction => ?_
      exact Bool.eq_false_iff.mpr (List.any_eq_false.mp hno action (hsub haction))
  cleared := fun es answer hended hquiet => by
    -- no action was taken yet, so nothing has to be gone
    have htears : o.TearsDown n (Teardown.ofVersion settings key) True :=
      .underway (List.nil_append _) hwork hending fun _ _ => Services.hasNone_nil _
    have hnone : (o.after es).world.services.HasNone (Teardown.ofVersion settings key) := by
      cases htears.after hn es fun _ => hquiet with
      | underway _ _ ending =>
        rw [ending] at hended
        cases hended
      | done _ hnone => exact hnone trivial
      | failed _ ending =>
        rw [ending] at hended
        cases hended
    constructor
    · refine hnone.tables _ ?_
      rw [Teardown.any_drops_ofVersion]
      exact beq_self_eq_true _
    · intro object hobject
      rw [← Teardown.any_deletes_ofVersion]
      exact hnone.objects object hobject

/-- What is deleted is gone and nothing else, in every state of every run. -/
theorem initial_deletesCleanly {settings : Settings} {now : Timestamp} {ids : IdSupply}
    {es : List Event} (hd : ((initial settings now ids).after es).world.ids.Distinct) :
    ((initial settings now ids).after es).DeletesCleanly := by
  have hs := initial_sound settings now ids
  have ht := tidy_after hs hd Store.tidy_empty
  have ho : ((initial settings now ids).after es).Numbered :=
    numbered_after (fun _ _ => ⟨rfl, rfl⟩) es
  replace hs := hs.after hd
  generalize (initial settings now ids).after es = o at hd hs ht ho
  constructor
  case version =>
    intro key work? hok
    obtain ⟨hrun, hwork⟩ := obey_of_ok hok
    obtain ⟨v, s, hdeleted, hworld, rfl⟩ := Command.deleteVersion_run hrun
    have hstarted := (hwork _ rfl).2
    have hending := (o.endingAt_command (.deleteVersion key) o.background.started).trans
      (ho _ (Nat.le_refl _)).2
    obtain ⟨hv, hversions, hgone⟩ := hs.world.wellFormed.without_deleteVersion ht hdeleted
    refine ⟨⟨v, hv⟩, ?_, removes_handle hs hd ho ht hgone hworld, ?_⟩
    · rw [hworld]
      exact hversions
    · exact removesContent_of_work (by omega) hending (workAt_deleteVersion hok)
  case asset =>
    intro id work? hok
    obtain ⟨a, s, hdeleted, hworld⟩ := Command.deleteAsset_run (obey_of_ok hok).1
    obtain ⟨ha, hdefault, hversions, hgone⟩ :=
      hs.world.wellFormed.without_deleteAsset ht hdeleted
    refine ⟨⟨a, ha, hdefault⟩, ?_, removes_handle hs hd ho ht hgone hworld⟩
    rw [hworld]
    exact hversions

/-! ## A state -/

namespace Sample

/-- A tile cache is derived from the first version. -/
def createCache : Command :=
  .createAsset ⟨"d", "v1"⟩ .dynamicVectorTileCache (.object [])

/-- Content of a version, of one with a similar name, and of neither. -/
def contentStored : Event :=
  .surround {
    now := ⟨0, 0⟩
    services := {
      objects := {
        objects := [("strata-data-lake", "d/v1/a.tif"), ("strata-data-lake", "d/v10/a.tif"),
          ("strata-tile-cache", "d/v1/b.pbf"), ("archive", "d/v1/a.tif")] }
      database := { tables := ⟨[(("d", "v1"), []), (("d", "v10"), [])]⟩ } }
    refused := []
    histories := {}
    rejectedTaskWrites := 0 }

/-- Two versions, each with the first of its tasks, and a tile cache. -/
def versionsStored : List Event :=
  datasetFiled ++ [.command createTable, .command createLatest, .command createCache, .advance 0,
    .advance 1, contentStored]

/-- The first version is deleted and its content removed. -/
def versionDeleted : List Event :=
  .command (.deleteVersion ⟨"d", "v1"⟩) :: List.replicate 5 (.advance 3)

end Sample

set_option maxRecDepth 100000 in
theorem versionsStored_deletesCleanly : ∃ o, o = Sample.start.after Sample.versionsStored ∧
    o.world.ids.Distinct ∧
      (o.world.store.assets.keys, o.world.store.tasks.keys) =
        ([0, 1, 2].map Sample.ids.asset, [0, 1].map Sample.ids.task) ∧
      Sample.isError (o.request (Command.deleteAsset (Sample.ids.asset 2)).flow).1 = false ∧
      Sample.isError (o.request (Command.deleteVersion ⟨"d", "v1"⟩).flow).1 = false ∧
      ((o.after Sample.versionDeleted).world.store.assets.keys,
        (o.after Sample.versionDeleted).world.store.tasks.keys,
        (o.after Sample.versionDeleted).world.services.objects.objects,
        (o.after Sample.versionDeleted).world.services.database.tables.keys) =
          ([1].map Sample.ids.asset, [1].map Sample.ids.task,
            [("strata-data-lake", "d/v10/a.tif"), ("archive", "d/v1/a.tif")], [("d", "v10")]) ∧
      o.DeletesCleanly := by
  have hd : (Sample.start.after Sample.versionsStored).world.ids.Distinct := by decide +kernel
  refine ⟨_, rfl, hd, ?_, ?_, ?_, ?_, initial_deletesCleanly hd⟩
  · decide +kernel
  · decide +kernel
  · decide +kernel
  · decide +kernel

end Orchestrator

end GeoAssets
