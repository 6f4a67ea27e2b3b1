import GeoAssets.Proofs.Lifecycle.Alike

/-!
# Steps in alike worlds

In alike worlds pieces of work that are alike take steps that are alike (`Activity.Alike.step`): the
same job is submitted, the same task recorded, the same outcome committed.
-/

namespace GeoAssets

/-! ## Outcomes -/

/-- The outcome without times. -/
def Outcome.bare (o : Outcome) : Outcome :=
  { o with entry := o.entry.bare }

theorem Outcome.transition_bare (o : Outcome) (a : Asset) (fields : Option (List Field)) :
    (o.transition a fields).bare = o.bare.transition a.bare fields := by
  rw [transition, Transition.bare, apply_ite (Option.map _)]
  rfl

theorem Outcome.ofTileCache_bare (time : Timestamp) (cache : Asset) (table : Option Asset) :
    (ofTileCache time cache table).bare =
      ofTileCache ⟨0, 0⟩ cache.bare (table.map Asset.bare) := by
  have hserves : (table.map Asset.bare).any (·.servesTiles) = table.any (·.servesTiles) := by
    cases table <;> rfl
  rw [ofTileCache, ofTileCache, hserves, apply_ite Outcome.bare]
  rfl

/-- The decision without times. -/
def Decision.bare : Decision → Decision
  | .finish outcome => .finish outcome.bare
  | .settled status => .settled status
  | .wait => .wait

theorem Decision.ofTasks_bare (time : Timestamp) (a : Asset) (tasks : List Task) :
    (ofTasks time a tasks).bare = ofTasks ⟨0, 0⟩ a.bare (tasks.map Task.bare) := by
  have hfailed : (tasks.map Task.bare).find? (·.progress == .failed) =
      (tasks.find? (·.progress == .failed)).map Task.bare := by
    rw [List.find?_map]
    simp only [Function.comp_def, Task.progress_bare]
  have hall : (tasks.map Task.bare).all (·.progress == .success) =
      tasks.all (·.progress == .success) := by
    rw [List.all_map]
    simp only [Function.comp_def, Task.progress_bare]
  have hcomplete : ∀ expected, isComplete expected (tasks.map Task.bare) =
      isComplete expected tasks := fun expected => by
    rw [isComplete, List.length_map, isComplete]
  have hstatus : a.bare.status = a.status := rfl
  have hexpected : a.bare.expectedTasks = a.expectedTasks := rfl
  unfold ofTasks
  rw [hfailed, hall, hstatus, hexpected]
  split
  · rfl
  cases tasks.find? (·.progress == .failed) with
  | some t => rfl
  | none =>
    cases a.expectedTasks with
    | none => rfl
    | some expected =>
      dsimp only [Option.map_none]
      rw [hcomplete]
      split <;> rfl

/-! ## Settling -/

/-- A settled asset without times. -/
def Settled.bare (s : Settled) : Settled :=
  { s with asset := s.asset.bare }

namespace World

variable {w w' : World}

theorem Alike.fieldsFor (hw : w.Alike w') {a a' : Asset} {o o' : Outcome} (ha : a.bare = a'.bare)
    (ho : o.bare = o'.bare) : w.fieldsFor a o = w'.fieldsFor a' o' := by
  have hkey := Asset.key_of_bare ha
  have hattaches : o.attachesFields = o'.attachesFields :=
    (congrArg Outcome.attachesFields ho : o.bare.attachesFields = o'.bare.attachesFields)
  unfold World.fieldsFor
  rw [hkey, hattaches, hw.database]

/-- Whether or not the tile service can be told, the world stays what it was, but for a note. -/
theorem redeployTiles_alike (w : World) (x : AssetId) : (w.redeployTiles x).Alike w := by
  unfold redeployTiles
  split
  · exact ⟨rfl, rfl, rfl, rfl, rfl⟩
  · split
    · next hs => exact (Alike.refl w).withStore (Store.bare_appendAssetLog rfl hs)
    · exact Alike.refl w

theorem measureSettled_alike (w : World) (a : Asset) (v : Option Version) :
    (w.measureSettled a v).Alike w := by
  cases v <;> exact ⟨rfl, rfl, rfl, rfl, rfl⟩

theorem Alike.settle (hw : w.Alike w') {a a' : Asset} {o o' : Outcome} (ha : a.bare = a'.bare)
    (ho : o.bare = o'.bare) :
    (w.settle a o).1.map Settled.bare = (w'.settle a' o').1.map Settled.bare ∧
      (w.settle a o).2.Alike (w'.settle a' o').2 := by
  have ht : (o.transition a (w.fieldsFor a o)).bare =
      (o'.transition a' (w'.fieldsFor a' o')).bare := by
    rw [Outcome.transition_bare, Outcome.transition_bare, ha, ho, hw.fieldsFor ha ho]
  have hcommit := Store.bare_commit hw.store ht
  unfold World.settle
  generalize w.store.commit _ = c, w'.store.commit _ = c' at hcommit
  obtain ⟨result, s⟩ := c
  obtain ⟨result', s'⟩ := c'
  obtain ⟨hresult, hs⟩ := Prod.ext_iff.mp hcommit
  have hw₁ := hw.withStore hs
  cases result with
  | missing => cases result' <;> first | exact ⟨rfl, hw₁⟩ | cases hresult
  | settled => cases result' <;> first | exact ⟨rfl, hw₁⟩ | cases hresult
  | applied b v =>
    cases result' with
    | missing => cases hresult
    | settled => cases hresult
    | applied b' v' =>
      have hb : b.bare = b'.bare := (CommitResult.applied.inj hresult).1
      have hredeploys : o.redeploysTiles = o'.redeploysTiles :=
        (congrArg Outcome.redeploysTiles ho : o.bare.redeploysTiles = o'.bare.redeploysTiles)
      have hregisters : o.registersTileCache = o'.registersTileCache :=
        (congrArg Outcome.registersTileCache ho :
          o.bare.registersTileCache = o'.bare.registersTileCache)
      have hw₂ := (measureSettled_alike _ b v).trans
        (hw₁.trans (measureSettled_alike _ b' v').symm)
      dsimp only
      rw [hredeploys, hregisters]
      refine ⟨congrArg (fun b => some (Settled.mk b _)) hb, ?_⟩
      split
      · exact (redeployTiles_alike _ _).trans (hw₂.trans (redeployTiles_alike _ _).symm)
      · exact hw₂

theorem Alike.settleByTasks (hw : w.Alike w') (x : AssetId) :
    (w.settleByTasks x).1.map Settled.bare = (w'.settleByTasks x).1.map Settled.bare ∧
      (w.settleByTasks x).2.Alike (w'.settleByTasks x).2 := by
  have hget := Store.asset_bare hw.store x
  have htasks : (w.store.tasksOf x).map Task.bare = (w'.store.tasksOf x).map Task.bare := by
    rw [← Store.bare_tasksOf, hw.store, Store.bare_tasksOf]
  unfold World.settleByTasks
  rcases ha : w.store.assets.get? x with _ | a <;>
    rcases ha' : w'.store.assets.get? x with _ | a' <;> rw [ha, ha'] at hget
  · exact ⟨rfl, hw⟩
  · cases hget
  · cases hget
  have hbare : a.bare = a'.bare := Option.some.inj hget
  have hdecision : (Decision.ofTasks w.now a (w.store.tasksOf x)).bare =
      (Decision.ofTasks w'.now a' (w'.store.tasksOf x)).bare := by
    rw [Decision.ofTasks_bare, Decision.ofTasks_bare, hbare, htasks]
  dsimp only
  generalize Decision.ofTasks w.now _ _ = d, Decision.ofTasks w'.now _ _ = d' at hdecision
  cases d with
  | finish o =>
    cases d' with
    | finish o' => exact hw.settle hbare (Decision.finish.inj hdecision)
    | settled => cases hdecision
    | wait => cases hdecision
  | settled => cases d' <;> first | exact ⟨rfl, hw⟩ | cases hdecision
  | wait => cases d' <;> first | exact ⟨rfl, hw⟩ | cases hdecision

end World

/-! ## Submitting jobs -/

namespace Submission

open Flow.Agree

theorem tryRecord_agree {t t' : Task} (ht : t.bare = t'.bare) :
    Flow.Agree Eq (tryRecord t) (tryRecord t') := by
  intro w w' hw
  have hcreate : Prod.map id Store.bare (w.store.createTask t) =
      Prod.map id Store.bare (w'.store.createTask t') := by
    rw [Store.bare_createTask, Store.bare_createTask, hw.store, ht]
  unfold tryRecord
  rw [Flow.run_ofRun, Flow.run_ofRun]
  generalize w.store.createTask t = c, w'.store.createTask t' = c' at hcreate
  obtain ⟨result, s⟩ := c
  obtain ⟨result', s'⟩ := c'
  obtain ⟨hresult, hs⟩ := Prod.ext_iff.mp hcreate
  obtain rfl : result = result' := hresult
  have hw₁ := hw.withStore hs
  cases result with
  | ok => exact ⟨.ok rfl, hw₁⟩
  | error e => cases e <;> exact ⟨.ok rfl, hw₁⟩

theorem recordTask_agree {t t' : Task} (ht : t.bare = t'.bare) (retries : Nat) :
    Flow.Agree Eq (recordTask t retries) (recordTask t' retries) := by
  induction retries with
  | zero =>
    refine bindSame (tryRecord_agree ht) fun e? => ?_
    cases e? with
    | none => exact pure rfl
    | some e => exact throw e
  | succ retries ih =>
    refine bindSame (tryRecord_agree ht) fun e? => ?_
    cases e? with
    | none => exact pure rfl
    | some _ => exact ih

theorem submitRequest_agree (r : SubmitRequest) :
    Flow.Agree Eq (submitRequest r) (submitRequest r) := by
  intro w w' hw
  have hids := hw.ids
  have hcluster := hw.cluster
  unfold submitRequest
  rw [Flow.run_ofRun, Flow.run_ofRun]
  dsimp only
  rw [hids, hcluster]
  split
  · exact ⟨.ok rfl, { hw with ids := rfl, cluster := rfl }⟩
  · exact ⟨.error _, hw⟩

theorem submitJob_agree (x : AssetId) (ids : Directory String TaskId) (job : Job) :
    Flow.Agree Eq (submitJob x ids job) (submitJob x ids job) := by
  refine bindSame (check (.refl _)) fun dependsOn => bindSame readSettings fun settings => ?_
  refine bindSame (check (.refl _)) fun request => ?_
  refine bindSame (submitRequest_agree request) fun id => bindRead fun now now' => ?_
  have ht : (newTask now x id job).bare = (newTask now' x id job).bare := rfl
  refine bind (attempt (recordTask_agree ht _)) fun r r' hr => ?_
  cases hr with
  | ok => exact pure rfl
  | error e => exact throw _

end Submission

/-! ## Tile caches -/

namespace TileCache

open Flow.Agree

theorem tableOf?_bare (s : Store) (k : VersionKey) :
    tableOf? s.bare k = (tableOf? s k).map Asset.bare := by
  unfold tableOf?
  rw [Store.bare_assetsOf, List.find?_map]
  rfl

theorem ofTable_bare (settings : Settings) (time : Timestamp) (id : AssetId) (table : Asset) :
    Asset.bare <$> ofTable settings time id table =
      ofTable settings ⟨0, 0⟩ id table.bare := by
  unfold ofTable
  rw [map_bind]
  rfl

theorem file_agree {table table' : Asset} (h : table.bare = table'.bare) :
    Flow.Agree (fun a b => a.bare = b.bare) (file table) (file table') := by
  refine bindSame drawAssetId fun id => bindSame readSettings fun settings => ?_
  refine bindRead fun now now' => ?_
  have hcache : Asset.bare <$> ofTable settings now id table =
      Asset.bare <$> ofTable settings now' id table' := by
    rw [ofTable_bare, ofTable_bare, h]
  refine bind (check (.of_map hcache)) fun cache cache' hbare => ?_
  refine bindSame (updateStore fun s s' hs => ?_) fun _ => pure hbare
  rw [Store.bare_createAsset, Store.bare_createAsset, hs, hbare]

end TileCache

/-! ## Activities -/

/-- The same follows; answers do not matter. -/
inductive Goal.Alike : Goal → Goal → Prop where
  | settlement : Alike .settlement .settlement
  | pipeline : Alike .pipeline .pipeline
  | answer (x y : Answer) : Alike (.answer x) (.answer y)

/-- The activities stand at the same place, with records that differ in times and in notes on the
tile service. Errors of teardown actions that were taken do not matter. -/
inductive Activity.Alike : Activity → Activity → Prop where
  | submit {a a' : Asset} {goal goal' : Option Goal} (ha : a.bare = a'.bare)
    (hgoal : goal.Rel Goal.Alike goal') (jobs : List Job) (ids : Directory String TaskId) :
    Alike (.submit a jobs ids goal) (.submit a' jobs ids goal')
  | abandon {a a' : Asset} (ha : a.bare = a'.bare) (job : String) (cause : Error) :
    Alike (.abandon a job cause) (.abandon a' job cause)
  | expect {a a' : Asset} {goal goal' : Goal} (ha : a.bare = a'.bare) (hgoal : goal.Alike goal')
    (count : UInt32) : Alike (.expect a count goal) (.expect a' count goal')
  | evaluate {goal goal' : Goal} (hgoal : goal.Alike goal') (x : AssetId) :
    Alike (.evaluate x goal) (.evaluate x goal')
  | inspect {a a' : Asset} {goal goal' : Goal} (ha : a.bare = a'.bare)
    (hgoal : goal.Alike goal') : Alike (.inspect a goal) (.inspect a' goal')
  | settle {a a' : Asset} {o o' : Outcome} {goal goal' : Goal} (ha : a.bare = a'.bare)
    (ho : o.bare = o'.bare) (hgoal : goal.Alike goal') :
    Alike (.settle a o goal) (.settle a' o' goal')
  | receive {e e' : LogEntry} (he : e.bare = e'.bare) (task : TaskId) :
    Alike (.receive task e) (.receive task e')
  | record {e e' : LogEntry} (he : e.bare = e'.bare) (x : AssetId) (task : TaskId) :
    Alike (.record x task e) (.record x task e')
  | register {a a' : Asset} {goal goal' : Goal} (ha : a.bare = a'.bare)
    (hgoal : goal.Alike goal') : Alike (.register a goal) (.register a' goal')
  | tearDown (actions : List TeardownAction) (error? error?' : Option Error) :
    Alike (.tearDown actions error?) (.tearDown actions error?')

/-- The activities go on alike, or both end. -/
inductive Next.Alike : Next → Next → Prop where
  | goOn {a a' : Activity} (h : a.Alike a') : Alike (.goOn a) (.goOn a')
  | finished (x y : Answer) : Alike (.finished x) (.finished y)

theorem Next.Alike.follow {goal goal' : Goal} (hgoal : goal.Alike goal')
    {settled settled' : Option Settled} (h : settled.map Settled.bare = settled'.map Settled.bare) :
    (Next.follow goal settled).Alike (Next.follow goal' settled') := by
  cases hgoal with
  | settlement => exact .finished _ _
  | answer x y => exact .finished _ _
  | pipeline =>
    rcases settled with _ | ⟨a, registers⟩ <;> rcases settled' with _ | ⟨a', registers'⟩
    · exact .finished _ _
    · cases h
    · cases h
    obtain ⟨ha, hregisters⟩ := Settled.mk.inj (Option.some.inj h)
    obtain rfl : registers = registers' := hregisters
    cases registers with
    | false => exact .finished _ _
    | true => exact .goOn (.register ha (.answer _ _))

theorem Next.Alike.afterReport (t t' : Task) {settled settled' : Option Settled}
    (h : settled.map Settled.bare = settled'.map Settled.bare) :
    (Next.afterReport t settled).Alike (Next.afterReport t' settled') := by
  rcases settled with _ | ⟨a, registers⟩ <;> rcases settled' with _ | ⟨a', registers'⟩
  · exact .finished _ _
  · cases h
  · cases h
  obtain ⟨ha, hregisters⟩ := Settled.mk.inj (Option.some.inj h)
  obtain rfl : registers = registers' := hregisters
  cases registers with
  | false => exact .finished _ _
  | true => exact .goOn (.register ha (.answer _ _))

/-! ## Parts of steps -/

namespace Activity

open Flow.Agree

variable {a a' : Asset} {goal goal' : Goal}

theorem inspectedOutcome_bare (w : World) (a : Asset) : (inspectedOutcome w a).bare =
    inspectedOutcome { w with now := ⟨0, 0⟩, store := w.store.bare } a.bare := by
  unfold inspectedOutcome
  rw [apply_ite Outcome.bare, Outcome.ofTileCache_bare, ← TileCache.tableOf?_bare]
  rfl

theorem submitNext_agree {goal goal' : Option Goal} (ha : a.bare = a'.bare)
    (hgoal : goal.Rel Goal.Alike goal') (job : Job) (jobs : List Job)
    (ids : Directory String TaskId) :
    Flow.Agree Next.Alike (submitNext a job jobs ids goal) (submitNext a' job jobs ids goal') := by
  unfold submitNext
  rw [← Asset.id_of_bare ha]
  refine bind (attempt (Submission.submitJob_agree _ _ _)) fun r r' hr => ?_
  cases hr with
  | ok h =>
    subst h
    exact bindSame (measure _ _) fun _ => pure (.goOn (.submit ha hgoal _ _))
  | error e => exact bindSame (measure _ _) fun _ => pure (.goOn (.abandon ha _ _))

theorem concludeSubmission_agree {goal goal' : Option Goal} (ha : a.bare = a'.bare)
    (hgoal : goal.Rel Goal.Alike goal') (ids : Directory String TaskId) :
    Flow.Agree Next.Alike (concludeSubmission a ids goal) (concludeSubmission a' ids goal') := by
  refine bindSame (measure _ _) fun _ => bindSame (check (.refl _)) fun count => ?_
  cases hgoal with
  | none => exact pure (.finished _ _)
  | some hgoal => exact pure (.goOn (.expect ha hgoal _))

theorem abandonNow_agree (ha : a.bare = a'.bare) (job : String) (cause : Error) :
    Flow.Agree Next.Alike (abandonNow a job cause) (abandonNow a' job cause) := by
  have houtcome : ∀ time time', (abandonedOutcome time a job cause).bare =
      (abandonedOutcome time' a' job cause).bare := fun time time' =>
    (congrArg (fun a => (abandonedOutcome ⟨0, 0⟩ a job cause).bare) ha :)
  unfold abandonNow
  rw [← Asset.id_of_bare ha]
  refine bind (R := fun _ _ => True) (ofWorld fun w w' hw => ⟨trivial, ?_⟩) fun _ _ _ =>
    bindSame (measure _ _) fun _ => throw _
  exact (hw.settle ha (houtcome _ _)).2

theorem expectTasks_agree (ha : a.bare = a'.bare) (hgoal : goal.Alike goal') (count : UInt32) :
    Flow.Agree Next.Alike (expectTasks a count goal) (expectTasks a' count goal') := by
  unfold expectTasks
  rw [← Asset.id_of_bare ha]
  refine bindSame (updateStore fun s s' hs => ?_) fun _ => pure (.goOn (.evaluate hgoal _))
  rw [Store.bare_setExpectedTasks, Store.bare_setExpectedTasks, hs]

theorem inspectNow_agree (ha : a.bare = a'.bare) (hgoal : goal.Alike goal') :
    Flow.Agree Next.Alike (inspectNow a goal) (inspectNow a' goal') := by
  have houtcome : ∀ w w' : World, w.Alike w' →
      (inspectedOutcome w a).bare = (inspectedOutcome w' a').bare := fun w w' hw => by
    rw [inspectedOutcome_bare, inspectedOutcome_bare, ha, hw.store]
    rfl
  unfold inspectNow
  rw [← Asset.id_of_bare ha]
  refine bind (R := fun o o' => o.bare = o'.bare) (read houtcome) fun o o' ho => ?_
  refine bindSame (updateStore fun s s' hs => ?_) fun _ => pure (.goOn (.settle ha ho hgoal))
  rw [Store.bare_setExpectedTasks, Store.bare_setExpectedTasks, hs]

theorem registerNow_agree (ha : a.bare = a'.bare) (hgoal : goal.Alike goal') :
    Flow.Agree Next.Alike (registerNow a goal) (registerNow a' goal') := by
  have hkey := Asset.key_of_bare ha
  unfold registerNow
  rw [← hkey]
  refine bind (attempt (TileCache.file_agree ha)) fun r r' hr => ?_
  cases hr with
  | ok hcache => exact pure (.goOn (.inspect hcache hgoal))
  | error e =>
    refine bindRead fun now now' => ?_
    have hentry : (TileCache.failedEntry now e).bare = (TileCache.failedEntry now' e).bare := rfl
    refine bindSame (updateStore fun s s' hs => ?_) fun _ => pure (.follow hgoal rfl)
    rw [Store.bare_appendVersionLog, Store.bare_appendVersionLog, hs, hentry]

theorem receiveReport_agree {e e' : LogEntry} (he : e.bare = e'.bare) (task : TaskId) :
    Flow.Agree Next.Alike (receiveReport task e) (receiveReport task e') := by
  have hprogress : e.progress = e'.progress :=
    (congrArg LogEntry.progress he : e.bare.progress = e'.bare.progress)
  have htask : ∀ w w' : World, w.Alike w' →
      ResultsAlike (fun t t' => Task.bare t = Task.bare t') (w.store.task task)
        (w'.store.task task) := fun w w' hw => .of_map (by
    rw [← Store.bare_task, ← Store.bare_task, hw.store])
  unfold receiveReport
  rw [← hprogress]
  refine bindSame (check (.refl _)) fun _ => bindSame (measure _ _) fun _ =>
    bind (checkRead htask) fun t t' ht => ?_
  rw [Task.asset_of_bare ht]
  exact pure (.goOn (.record he _ _))

theorem recordReport_agree {e e' : LogEntry} (he : e.bare = e'.bare) (task : TaskId) :
    Flow.Agree Next.Alike (recordReport task e) (recordReport task e') := by
  refine bind (takeFromStore (p := Task.bare) fun s s' hs => ?_) fun t t' ht => ?_
  · rw [Store.bare_appendTaskLog, Store.bare_appendTaskLog, hs, he]
  rw [Task.asset_of_bare ht]
  exact bind (ofWorld fun w w' hw => hw.settleByTasks _) fun _ _ hsettled =>
    pure (.afterReport _ _ hsettled)

/-- What a teardown action does to the database, whatever the other services are like. -/
def onDatabase (d : Database) : TeardownAction → Database
  | .dropTable dataset version => (d.dropTable dataset version).toOption.getD d
  | .deleteObject .. | .deleteUnder .. | .invalidate .. => d

theorem database_afterwards (action : TeardownAction) (s : Services) :
    (Flow.afterwards (action.run ·) s).database = onDatabase s.database action := by
  cases action with
  | dropTable dataset version =>
    dsimp only [Flow.afterwards, TeardownAction.run, onDatabase]
    cases s.database.dropTable dataset version <;> rfl
  | deleteObject bucket key =>
    dsimp only [Flow.afterwards, TeardownAction.run]
    cases s.objects.delete bucket key <;> rfl
  | deleteUnder bucket start =>
    dsimp only [Flow.afterwards, TeardownAction.run]
    cases s.objects.deleteUnder bucket start <;> rfl
  | invalidate id paths =>
    dsimp only [Flow.afterwards, TeardownAction.run]
    cases s.distribution.invalidate id paths <;> rfl

theorem takeAction_agree (action : TeardownAction) (actions : List TeardownAction)
    (error? error?' : Option Error) : Flow.Agree Next.Alike (takeAction action actions error?)
      (takeAction action actions error?') := by
  refine bind (attemptServices fun s s' h => ?_) fun r r' _ => ?_
  · rw [database_afterwards, database_afterwards, h]
  cases r <;> cases r' <;>
    exact bindSame (measure _ _) fun _ => pure (.goOn (.tearDown _ _ _))

/-! ## Steps -/

/-- What the programs leave of their activities is alike, and so are the worlds. -/
def StepAlike (f g : Flow Next) : Prop :=
  ∀ w w', w.Alike w' →
    (Next.rest? (f.run w).1).Rel Activity.Alike (Next.rest? (g.run w').1) ∧
      (f.run w).2.Alike (g.run w').2

theorem stepAlike_of_agree {f g : Flow Next} (h : Flow.Agree Next.Alike f g) : StepAlike f g := by
  intro w w' hw
  obtain ⟨hr, hw₁⟩ := h w w' hw
  refine ⟨?_, hw₁⟩
  generalize (f.run w).1 = r, (g.run w').1 = r' at hr
  cases hr with
  | error e => exact .none
  | ok h =>
    cases h with
    | goOn h => exact .some h
    | finished x y => exact .none

namespace Alike

variable {a a' : Activity}

theorem proceed (h : a.Alike a') : StepAlike a.proceed a'.proceed := by
  cases h with
  | submit ha hgoal jobs ids =>
    cases jobs with
    | nil => exact stepAlike_of_agree (concludeSubmission_agree ha hgoal ids)
    | cons job jobs => exact stepAlike_of_agree (submitNext_agree ha hgoal job jobs ids)
  | abandon ha job cause => exact stepAlike_of_agree (abandonNow_agree ha job cause)
  | expect ha hgoal count => exact stepAlike_of_agree (expectTasks_agree ha hgoal count)
  | evaluate hgoal x =>
    exact stepAlike_of_agree <|
      map (ofWorld fun w w' hw => hw.settleByTasks x) fun _ _ => .follow hgoal
  | inspect ha hgoal => exact stepAlike_of_agree (inspectNow_agree ha hgoal)
  | settle ha ho hgoal =>
    exact stepAlike_of_agree <|
      map (ofWorld fun w w' hw => hw.settle ha ho) fun _ _ => .follow hgoal
  | receive he task => exact stepAlike_of_agree (receiveReport_agree he task)
  | record he x task => exact stepAlike_of_agree (recordReport_agree he task)
  | register ha hgoal => exact stepAlike_of_agree (registerNow_agree ha hgoal)
  | tearDown actions error? error?' =>
    cases actions with
    | cons action actions => exact stepAlike_of_agree (takeAction_agree action actions _ _)
    | nil =>
      -- whether an action failed decides over the answer only
      intro w w' hw
      cases error? <;> cases error?' <;> exact ⟨.none, hw⟩

/-- Activities that are alike take alike steps. -/
theorem step (h : a.Alike a') : StepAlike a.step a'.step := by
  intro w w' hw
  rcases hstep : a.step.run w with ⟨r, w₁⟩
  rcases hstep' : a'.step.run w' with ⟨r', w₁'⟩
  obtain ⟨r₀, hr, hrest⟩ := step_cases hstep
  obtain ⟨r₀', hr', hrest'⟩ := step_cases hstep'
  have hproceed := h.proceed w w' hw
  rw [hr, hr'] at hproceed
  rw [hrest, hrest']
  exact hproceed

theorem lock? (h : a.Alike a') : a.lock? = a'.lock? := by
  cases h with
  | abandon ha => exact congrArg some (Asset.id_of_bare ha)
  | settle ha => exact congrArg some (Asset.id_of_bare ha)
  | _ => rfl

end Alike

end Activity

end GeoAssets
