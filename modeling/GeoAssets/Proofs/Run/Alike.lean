import GeoAssets.Proofs.Lifecycle.Agree
import GeoAssets.Proofs.Run.Settled
import Mathlib.Data.List.Forall2

/-!
# Runs with services out of order

Two runs in which the same things happen, and which differ at most in when things are noted and in
when the tile service, the objects and the distribution are out of order, keep the same catalog and
submit the same jobs (`Orchestrator.SameCatalog`). For events that are alike, requests as well as
steps, keep orchestrators alike.
-/

namespace GeoAssets

/-! ## Plans -/

/-- Plans have nothing to do with times. -/
theorem Plan.build_bare (b : Brief) : build { b with asset := b.asset.bare } = build b := rfl

namespace Request

theorem defaultAsset_bare (settings : Settings) (now : Timestamp) (x : AssetId) (key : VersionKey)
    (options : CreationOptions) : Asset.bare <$> defaultAsset settings now x key options =
      defaultAsset settings ⟨0, 0⟩ x key options := by
  unfold defaultAsset
  rw [map_bind]
  refine bind_congr fun type => ?_
  rw [map_bind]
  exact bind_congr fun uri => rfl

theorem planSource_bare (settings : Settings) (now : Timestamp) (x : AssetId) (key : VersionKey)
    (sourceType : String) (json : Json) :
    Prod.map Asset.bare id <$> planSource settings now x key sourceType json =
      planSource settings ⟨0, 0⟩ x key sourceType json := by
  unfold planSource
  rw [map_bind]
  refine bind_congr fun options => ?_
  rw [← defaultAsset_bare settings now, map_bind, bind_map_left]
  refine bind_congr fun asset => ?_
  rw [map_bind, ← Plan.build_bare]
  exact bind_congr fun graph => rfl

/-- What is planned from a source differs in times only. -/
theorem planSource_alike (settings : Settings) (now now' : Timestamp) (x : AssetId)
    (key : VersionKey) (sourceType : String) (json : Json) :
    ResultsAlike (fun x y => Prod.map Asset.bare id x = Prod.map Asset.bare id y)
      (planSource settings now x key sourceType json)
      (planSource settings now' x key sourceType json) :=
  .of_map (by rw [planSource_bare, planSource_bare])

theorem defaultFields_bare (assets : List Asset) :
    defaultFields (assets.map Asset.bare) = defaultFields assets := by
  unfold defaultFields
  rw [List.find?_map]
  show (((assets.find? (·.isDefault)).map Asset.bare).map _).getD [] = _
  cases assets.find? (·.isDefault) <;> rfl

theorem planDerived_bare (settings : Settings) (now : Timestamp) (x : AssetId) (key : VersionKey)
    (type : AssetType) (json : Json) (siblings : List Asset) :
    Prod.map Asset.bare id <$> planDerived settings now x key type json siblings =
      planDerived settings ⟨0, 0⟩ x key type json (siblings.map Asset.bare) := by
  unfold planDerived
  rw [map_bind]
  refine bind_congr fun options => ?_
  rw [map_bind]
  refine bind_congr fun uri => ?_
  rw [defaultFields_bare, map_bind, ← Plan.build_bare]
  exact bind_congr fun graph => rfl

end Request

/-! ## Requests -/

/-- The work goes on alike. -/
def Work.Alike (x y : Work) : Prop :=
  x.activity.Alike y.activity

theorem Work.Alike.pipeline {a a' : Asset} (ha : a.bare = a'.bare) (g : JobGraph) :
    (Work.pipeline a g).Alike (.pipeline a' g) := by
  unfold Work.Alike Work.pipeline Activity.ofGraph
  dsimp only
  split
  · exact .inspect ha .pipeline
  · exact .submit ha (.some .pipeline) _ _

namespace Request

open Flow.Agree

/-- Whether or not the distribution can be told, nothing else happens. -/
theorem forgetLatest_agree (key : VersionKey) :
    Flow.Agree Eq (forgetLatest key) (forgetLatest key) := by
  refine bindSame readSettings fun settings => ?_
  refine bind (attemptServices fun s s' h => ?_) fun _ _ _ => pure rfl
  have hkeeps : ∀ s : Services, (Flow.afterwards (fun s => do
      let distribution ←
        s.distribution.invalidate settings.cdnDistribution (Location.latestPaths key)
      Pure.pure { s with distribution }) s).database = s.database := by
    intro s
    dsimp only [Flow.afterwards]
    cases s.distribution.invalidate settings.cdnDistribution (Location.latestPaths key) <;> rfl
  rw [hkeeps, hkeeps, h]

end Request

namespace Command

open Flow.Agree

/-- The commands differ at most in times. -/
inductive Alike : Command → Command → Prop where
  | createDataset {d d' : Dataset} (h : d.bare = d'.bare) :
    Alike (.createDataset d) (.createDataset d')
  | same (c : Command) : Alike c c

/-- The answers are the same but for times, and so is what goes on after them. -/
abbrev Agrees (f g : Flow (Option Work)) : Prop :=
  Flow.Agree (Option.Rel Work.Alike) f g

/-- A request after which nothing goes on. -/
theorem agrees_of_none {α β : Type} {R : α → β → Prop} {f : Flow α} {g : Flow β}
    (h : Flow.Agree R f g) : Agrees ((fun _ => none) <$> f) ((fun _ => none) <$> g) :=
  map h fun _ _ _ => .none

/-- A request after which work goes on. -/
theorem agrees_of_some {α β : Type} {f : Flow (α × Work)} {g : Flow (β × Work)}
    (h : Flow.Agree (fun x y => x.2.Alike y.2) f g) :
    Agrees ((fun answer => some answer.2) <$> f) ((fun answer => some answer.2) <$> g) :=
  map h fun _ _ hwork => .some hwork

theorem createDataset_agrees {d d' : Dataset} (h : d.bare = d'.bare) :
    Agrees (createDataset d).flow (createDataset d').flow := by
  refine agrees_of_none (R := fun _ _ => True) ?_
  refine bindSame (updateStore fun s s' hs => ?_) fun _ => pure trivial
  rw [Store.bare_createDataset, Store.bare_createDataset, hs, h]

theorem deleteDataset_agrees (name : String) :
    Agrees (deleteDataset name).flow (deleteDataset name).flow := by
  refine agrees_of_none (takeFromStore (p := Dataset.bare) fun s s' hs => ?_)
  rw [Store.bare_deleteDataset, Store.bare_deleteDataset, hs]

theorem createVersion_agrees (q : VersionRequest) :
    Agrees (createVersion q).flow (createVersion q).flow := by
  refine agrees_of_some (bindSame drawAssetId fun x => bindSame readSettings fun settings => ?_)
  refine bindRead fun now now' => ?_
  refine bind (check (Request.planSource_alike ..)) fun ⟨a, g⟩ ⟨a', g'⟩ h => ?_
  obtain ⟨ha, hg⟩ := Prod.ext_iff.mp h
  obtain rfl : g = g' := hg
  have hv : (Request.VersionRequest.version q now).bare =
      (Request.VersionRequest.version q now').bare := rfl
  refine bindSame (updateStore fun s s' hs => ?_) fun _ => ?_
  · rw [Store.bare_createVersion, Store.bare_createVersion, hs, hv]
    exact congrArg _ ha
  -- the distribution is told about the latest version
  have hlatest : (Request.VersionRequest.version q now).isLatest =
      (Request.VersionRequest.version q now').isLatest := rfl
  dsimp only
  rw [hlatest]
  split
  · exact bindSame (Request.forgetLatest_agree _) fun _ => pure (.pipeline ha g)
  · exact pure (.pipeline ha g)

theorem setLatest_agrees (key : VersionKey) :
    Agrees (setLatest key).flow (setLatest key).flow := by
  refine agrees_of_none (R := fun v v' => v.bare = v'.bare) ?_
  refine bind (takeFromStore (p := Version.bare) fun s s' hs => ?_) fun _ _ hv =>
    bindSame (Request.forgetLatest_agree _) fun _ => pure hv
  rw [Store.bare_setLatest, Store.bare_setLatest, hs]

theorem deleteVersion_agrees (key : VersionKey) :
    Agrees (deleteVersion key).flow (deleteVersion key).flow := by
  refine agrees_of_some ?_
  refine bind (takeFromStore (p := Version.bare) fun s s' hs => ?_) fun _ _ _ =>
    bindSame readSettings fun settings => pure (.tearDown _ _ _)
  rw [Store.bare_deleteVersion, Store.bare_deleteVersion, hs]

/-- The version of a new asset has to be there. -/
theorem version_agree (key : VersionKey) : Flow.Agree (fun v v' => Version.bare v = Version.bare v')
    (Flow.check =<< Flow.read (·.store.version key))
    (Flow.check =<< Flow.read (·.store.version key)) := by
  refine checkRead fun w w' hw => .of_map ?_
  rw [← Store.bare_version, ← Store.bare_version, hw.store]

/-- An asset that was planned is filed, and its pipeline goes on. -/
theorem file_agree {x y : Asset × JobGraph}
    (h : Prod.map Asset.bare id x = Prod.map Asset.bare id y) :
    Flow.Agree (fun a b : Asset × Work => a.2.Alike b.2)
      (do
        Flow.updateStore (·.createAsset x.1)
        Pure.pure (x.1, .pipeline x.1 x.2))
      (do
        Flow.updateStore (·.createAsset y.1)
        Pure.pure (y.1, .pipeline y.1 y.2)) := by
  obtain ⟨a, g⟩ := x
  obtain ⟨a', g'⟩ := y
  obtain ⟨ha, hg⟩ := Prod.ext_iff.mp h
  obtain rfl : g = g' := hg
  refine bindSame (updateStore fun s s' hs => ?_) fun _ => pure (.pipeline ha g)
  rw [Store.bare_createAsset, Store.bare_createAsset, hs]
  exact congrArg _ ha

theorem createDefaultAsset_agrees (key : VersionKey) (sourceType : String) (options : Json) :
    Agrees (createDefaultAsset key sourceType options).flow
      (createDefaultAsset key sourceType options).flow := by
  refine agrees_of_some (bind (version_agree key) fun _ _ _ => bindSame drawAssetId fun x => ?_)
  refine bindSame readSettings fun settings => bindRead fun now now' => ?_
  exact bind (check (Request.planSource_alike ..)) fun _ _ h => file_agree h

theorem createAsset_agrees (key : VersionKey) (type : AssetType) (options : Json) :
    Agrees (createAsset key type options).flow (createAsset key type options).flow := by
  refine agrees_of_some (bind (version_agree key) fun _ _ _ => bindSame drawAssetId fun x => ?_)
  refine bindSame readSettings fun settings => bindRead fun now now' => ?_
  refine bind (R := fun as bs => as.map Asset.bare = bs.map Asset.bare) (read fun w w' hw => ?_)
    fun siblings siblings' hsiblings => ?_
  · rw [← Store.bare_assetsOf, ← Store.bare_assetsOf, hw.store]
  have hplan : Prod.map Asset.bare id <$>
      Request.planDerived settings now x key type options siblings =
      Prod.map Asset.bare id <$>
        Request.planDerived settings now' x key type options siblings' := by
    rw [Request.planDerived_bare, Request.planDerived_bare, hsiblings]
  exact bind (check (.of_map hplan)) fun _ _ h => file_agree h

theorem deleteAsset_agrees (x : AssetId) :
    Agrees (deleteAsset x).flow (deleteAsset x).flow := by
  have hasset : Flow.Agree (fun a b => Asset.bare a = Asset.bare b)
      (Flow.check =<< Flow.read (·.store.asset x))
      (Flow.check =<< Flow.read (·.store.asset x)) := by
    refine checkRead fun w w' hw => .of_map ?_
    rw [← Store.bare_asset, ← Store.bare_asset, hw.store]
  refine agrees_of_some (bind hasset fun a a' ha => ?_)
  have hrequire : require (!a.isDefault) (Store.defaultAssetConflict a) =
      require (!a'.isDefault) (Store.defaultAssetConflict a') :=
    (congrArg (fun a : Asset => require (!a.isDefault) (Store.defaultAssetConflict a)) ha :)
  have hactions : ∀ settings, Teardown.ofAsset settings a = Teardown.ofAsset settings a' :=
    fun settings => (congrArg (Teardown.ofAsset settings) ha :)
  rw [hrequire]
  refine bindSame (check (.refl _)) fun _ => bindSame readSettings fun settings => ?_
  rw [hactions]
  refine bindSame (check (.refl _)) fun actions => ?_
  refine bind (takeFromStore (p := Asset.bare) fun s s' hs => ?_) fun _ _ _ =>
    pure (.tearDown _ _ _)
  rw [Store.bare_deleteAsset, Store.bare_deleteAsset, hs]

theorem getTask_agrees (id : TaskId) : Agrees (getTask id).flow (getTask id).flow := by
  refine agrees_of_none (checkRead fun w w' hw => .of_map (f := Task.bare) (g := Task.bare) ?_)
  rw [← Store.bare_task, ← Store.bare_task, hw.store]

theorem attempts_agree (id : TaskId) :
    Flow.Agree Eq (Request.attempts id) (Request.attempts id) := by
  refine checkRead fun w w' hw => ?_
  rw [hw.cluster]
  exact .refl _

theorem Alike.agrees {c c' : Command} (h : c.Alike c') : Agrees c.flow c'.flow := by
  cases h with
  | createDataset h => exact createDataset_agrees h
  | same c =>
    cases c with
    | createDataset d => exact createDataset_agrees rfl
    | deleteDataset name => exact deleteDataset_agrees name
    | createVersion q => exact createVersion_agrees q
    | setLatest key => exact setLatest_agrees key
    | deleteVersion key => exact deleteVersion_agrees key
    | createDefaultAsset key sourceType options =>
      exact createDefaultAsset_agrees key sourceType options
    | createAsset key type options => exact createAsset_agrees key type options
    | deleteAsset x => exact deleteAsset_agrees x
    | getTask id => exact getTask_agrees id
    | resubmissionCores id current | resubmissionProcesses id current =>
      exact agrees_of_none (map (attempts_agree id) fun _ _ h => congrArg _ h)

end Command

/-! ## Events -/

/-- The surroundings differ at most in the time, and in the services but for the database. -/
structure Surroundings.Alike (s s' : Surroundings) : Prop where
  database : s.services.database = s'.services.database
  refused : s.refused = s'.refused
  histories : s.histories = s'.histories
  rejectedTaskWrites : s.rejectedTaskWrites = s'.rejectedTaskWrites

/-- The same happens, at another time and with other services out of order at most. Where services
break down in one run only, the surroundings of the other one stay as they are. -/
inductive Event.Alike : Event → Event → Prop where
  | command {c c' : Command} (h : c.Alike c') : Alike (.command c) (.command c')
  | report {e e' : LogEntry} (h : e.bare = e'.bare) (task : TaskId) :
    Alike (.report task e) (.report task e')
  | advance (n : Nat) : Alike (.advance n) (.advance n)
  | hold (x : AssetId) : Alike (.hold x) (.hold x)
  | release (x : AssetId) : Alike (.release x) (.release x)
  | surround {s s' : Surroundings} (h : s.Alike s') : Alike (.surround s) (.surround s')

theorem Event.Alike.refl (e : Event) : e.Alike e := by
  cases e with
  | command c => exact .command (.same c)
  | report task entry => exact .report rfl task
  | advance n => exact .advance n
  | hold x => exact .hold x
  | release x => exact .release x
  | surround s => exact .surround ⟨rfl, rfl, rfl, rfl⟩

namespace Orchestrator

/-- The worlds are alike, and so is the work in the background. -/
structure Alike (o o' : Orchestrator) : Prop where
  world : o.world.Alike o'.world
  locks : o.locks = o'.locks
  started : o.background.started = o'.background.started
  work : ∀ n, (o.workAt n).Rel Activity.Alike (o'.workAt n)

variable {o o' : Orchestrator} {n : Nat} {a a' : Activity}

/-- What a piece does next, given its activity. -/
theorem advance_eq (ha : o.workAt n = some a) : o.advance n =
    match a.lock? with
    | none => o.takeStep n a
    | some x =>
      match o.locks.holder? x with
      | none => o.takeStep n a
      | some user =>
        if user = .piece n then (o.takeStep n a).unlock x user else o.waitFor n x := by
  obtain ⟨piece, hp, rfl⟩ := Option.map_eq_some_iff.mp ha
  unfold advance
  generalize o.background.pieces.get? n = piece? at hp
  subst hp
  rfl

theorem locks_takeStep (o : Orchestrator) (n : Nat) (a : Activity) :
    (o.takeStep n a).locks = o.locks := by
  unfold takeStep
  split <;> rfl

theorem locks_unlock (o : Orchestrator) (x : AssetId) (user : LockUser) :
    (o.unlock x user).locks = o.locks.leave user := by
  unfold unlock wakeHolder
  split <;> rfl

namespace Alike

theorem takeStep (h : o.Alike o') (ha : o.workAt n = some a) (ha' : o'.workAt n = some a') :
    (o.takeStep n a).Alike (o'.takeStep n a') := by
  have hwork := h.work n
  rw [ha, ha'] at hwork
  obtain ⟨r, hr, hn, hstarted⟩ := takeStep_cases ha
  obtain ⟨r', hr', hn', hstarted'⟩ := takeStep_cases ha'
  cases hwork with
  | some hwork =>
    obtain ⟨hrest, hworld⟩ := hwork.step o.world o'.world h.world
    rw [hr, hr'] at hrest hworld
    refine ⟨hworld, ?_, ?_, fun m => ?_⟩
    · rw [locks_takeStep, locks_takeStep, h.locks]
    · rw [hstarted, hstarted', h.started]
    · rw [hn, hn']
      split
      · exact hrest
      · exact h.work m

theorem unlock (h : o.Alike o') (x : AssetId) (user : LockUser) :
    (o.unlock x user).Alike (o'.unlock x user) := by
  refine ⟨?_, ?_, ?_, fun m => ?_⟩
  · rw [world_unlock, world_unlock]
    exact h.world
  · rw [locks_unlock, locks_unlock, h.locks]
  · rw [started_unlock, started_unlock, h.started]
  · rw [workAt_unlock, workAt_unlock]
    exact h.work m

theorem advance (h : o.Alike o') (n : Nat) : (o.advance n).Alike (o'.advance n) := by
  have hwork := h.work n
  rcases ha : o.workAt n with _ | a <;> rcases ha' : o'.workAt n with _ | a' <;>
    rw [ha, ha'] at hwork
  · have hpark : ∀ o : Orchestrator, o.workAt n = none →
        o.advance n = { o with background := o.background.park n } := fun o hn => by
      unfold Orchestrator.advance
      rw [Option.map_eq_none_iff.mp hn]
    rw [hpark o ha, hpark o' ha']
    exact ⟨h.world, h.locks, h.started, h.work⟩
  · cases hwork
  · cases hwork
  have hstep := h.takeStep ha ha'
  have hlock : a.lock? = a'.lock? := by
    cases hwork with
    | some hwork => exact hwork.lock?
  rw [advance_eq ha, advance_eq ha', hlock, h.locks]
  split
  · exact hstep
  · next x _ =>
    split
    · exact hstep
    · next user _ =>
      split
      · exact hstep.unlock x user
      · exact ⟨h.world, congrArg (·.request x (.piece n)) h.locks, h.started, h.work⟩

theorem start (h : o.Alike o') (ha : a.Alike a') (name name' : String) (isWatched : Bool)
    {w w' : World} (hw : w.Alike w') :
    Alike ⟨w, o.locks, (o.background.start name isWatched a).2⟩
      ⟨w', o'.locks, (o'.background.start name' isWatched a').2⟩ := by
  refine ⟨hw, h.locks, congrArg (· + 1) h.started, fun m => ?_⟩
  rw [workAt_start, workAt_start, h.started]
  split
  · exact .some ha
  · exact h.work m

theorem obey (h : o.Alike o') {c c' : Command} (hc : c.Alike c') :
    (o.obey c).Alike (o'.obey c') := by
  obtain ⟨hr, hworld⟩ := hc.agrees o.world o'.world h.world
  unfold Orchestrator.obey request
  generalize c.flow.run o.world = x, c'.flow.run o'.world = x' at hr hworld
  obtain ⟨r, w⟩ := x
  obtain ⟨r', w'⟩ := x'
  have hidle : Alike { o with world := w } { o' with world := w' } :=
    ⟨hworld, h.locks, h.started, h.work⟩
  cases hr with
  | error e => exact hidle
  | ok hwork =>
    cases hwork with
    | none => exact hidle
    | some hwork => exact h.start hwork _ _ true hworld

/-- Events that are alike keep orchestrators alike. -/
theorem handle (h : o.Alike o') {e e' : Event} (he : e.Alike e') :
    (o.handle e).Alike (o'.handle e') := by
  cases he with
  | command hc => exact h.obey hc
  | report he task => exact h.start (.receive he task) _ _ false h.world
  | advance n => exact h.advance n
  | hold x => exact ⟨h.world, congrArg (·.request x (.caller x)) h.locks, h.started, h.work⟩
  | release x => exact h.unlock x _
  | @surround s s' hs =>
    have hw := h.world
    refine ⟨⟨hw.settings, hw.ids, ?_, ?_, hs.database⟩, h.locks, h.started, h.work⟩
    · show ({ o.world.store.bare with rejectedTaskWrites := s.rejectedTaskWrites } : Store) = _
      rw [hw.store, hs.rejectedTaskWrites]
      rfl
    · show ({ o.world.cluster with refused := s.refused, histories := s.histories } : Cluster) = _
      rw [hw.cluster, hs.refused, hs.histories]
      rfl

theorem after (h : o.Alike o') {es es' : List Event} (hes : List.Forall₂ Event.Alike es es') :
    (o.after es).Alike (o'.after es') := by
  induction hes generalizing o o' with
  | nil => exact h
  | cons he _ ih => exact ih (h.handle he)

end Alike

/-! ## Runs -/

/-- The catalogs are the same but for times and for notes on the tile service, and the same jobs
were submitted. -/
structure SameCatalog (o o' : Orchestrator) : Prop where
  store : o.world.store.bare = o'.world.store.bare
  cluster : o.world.cluster = o'.world.cluster

theorem initial_alike (settings : Settings) (ids : IdSupply) (now now' : Timestamp) :
    (initial settings now ids).Alike (initial settings now' ids) :=
  ⟨⟨rfl, rfl, rfl, rfl, rfl⟩, rfl, rfl, fun _ => .none⟩

/-- Services out of order leave no trace in the catalog but notes on the tile service, and have no
effect on what is submitted. -/
theorem initial_sameCatalog (settings : Settings) (ids : IdSupply) (now now' : Timestamp)
    {es es' : List Event} (h : List.Forall₂ Event.Alike es es') (n : Nat) :
    ((initial settings now ids).after (es.take n)).SameCatalog
      ((initial settings now' ids).after (es'.take n)) := by
  have halike := (initial_alike settings ids now now').after (List.forall₂_take n h)
  exact ⟨halike.world.store, halike.world.cluster⟩

/-! ## Two runs -/

namespace Sample

/-- There is a table to render tiles from. Other services are in order, or all out of order. -/
def tableLoaded (isDown : Bool) : Event :=
  .surround {
    now := ⟨0, 0⟩
    services := {
      objects := { isDown }
      distribution := { isDown }
      database := { tables := ⟨[(("d", "v1"), [⟨"name", "text"⟩])]⟩ }
      tiles := { isDown } }
    refused := []
    histories := {}
    rejectedTaskWrites := 0 }

/-- The table is saved, and then a tile cache; the version becomes the latest one. -/
def tilesSaved : List Event :=
  .command createTable :: tableSaved ++
    .command (.createAsset ⟨"d", "v1"⟩ .staticVectorTileCache (.object [])) ::
      List.replicate 5 (.advance 4) ++ delivered 5 3 .success ++ delivered 6 4 .success ++
        [.command (.setLatest ⟨"d", "v1"⟩)]

/-- The logs of the assets. -/
def assetLogs (o : Orchestrator) : List (Status × List String) :=
  o.world.store.assets.values.map fun a => (a.status, a.log.map (·.message))

end Sample

set_option maxRecDepth 100000 in
theorem tilesSaved_sameCatalog : ∃ es es',
    es = Sample.datasetFiled ++ Sample.tableLoaded false :: Sample.tilesSaved ∧
    es' = Sample.datasetFiled ++ Sample.tableLoaded true :: Sample.tilesSaved ∧
    List.Forall₂ Event.Alike es es' ∧
    Sample.assetLogs (Sample.start.after es) =
      [(.saved, ["Successfully created asset 00000000000000000000000000."]),
        (.saved, ["Successfully created asset 00000000000000000000000001."])] ∧
    Sample.assetLogs (Sample.start.after es') =
      [(.saved, ["Successfully created asset 00000000000000000000000000."]),
        (.saved, ["Successfully created asset 00000000000000000000000001.",
          "Failed to redeploy tile cache service"])] ∧
    ∀ n, (Sample.start.after (es.take n)).SameCatalog (Sample.start.after (es'.take n)) := by
  have hsame : ∀ es : List Event, List.Forall₂ Event.Alike es es := fun es =>
    List.forall₂_same.mpr fun e _ => .refl e
  have halike : List.Forall₂ Event.Alike
      (Sample.datasetFiled ++ Sample.tableLoaded false :: Sample.tilesSaved)
      (Sample.datasetFiled ++ Sample.tableLoaded true :: Sample.tilesSaved) :=
    List.rel_append (hsame _) (.cons (.surround ⟨rfl, rfl, rfl, rfl⟩) (hsame _))
  refine ⟨_, _, rfl, rfl, halike, ?_, ?_, initial_sameCatalog _ _ _ _ halike⟩
  · decide +kernel
  · decide +kernel

end Orchestrator

end GeoAssets
