import GeoAssets.Lifecycle.Step
import GeoAssets.Proofs.Lifecycle.Settlement
import GeoAssets.Proofs.Lifecycle.Submission

/-!
# What steps do

`Activity.Moves` lists what the next step of an activity may do to the store and what is left of the
activity, one case for each way in which a step can end. `step_moves` says that there is no other
way; everything that is proved of steps is proved by these cases.
-/

namespace GeoAssets

/-! ## What activities know -/

namespace Activity

/-- The asset that an activity is about, as it was when the activity began. -/
def copy? : Activity → Option Asset
  | .submit asset .. | .abandon asset .. | .expect asset .. | .inspect asset _
  | .settle asset .. => some asset
  | .evaluate .. | .receive .. | .record .. | .register .. | .tearDown .. => none

/-- The asset that an activity is about. -/
def subject? : Activity → Option AssetId
  | .evaluate asset _ => some asset
  | a => a.copy?.map (·.id)

/-- An activity knows its asset as the asset was, and settles it in a fitting way. -/
structure Suits (a : Activity) (s : Store) : Prop where
  copy : ∀ asset, a.copy? = some asset → ∀ b, s.assets.get? asset.id = some b → asset.Becomes b
  outcome : ∀ asset o goal, a = .settle asset o goal → o.Fits asset

theorem subject?_of_copy? {a : Activity} {asset : Asset} (h : a.copy? = some asset) :
    a.subject? = some asset.id := by
  cases a <;> cases h <;> rfl

end Activity

/-- What is left of an activity after a step. -/
def Next.rest? : Except Error Next → Option Activity
  | .ok (.goOn rest) => some rest
  | .ok (.finished _) | .error _ => none

/-- Nothing is left but to register a tile cache. -/
def Registers (rest? : Option Activity) : Prop :=
  ∀ rest, rest? = some rest → ∃ table answer, rest = .register table (.answer answer)

theorem registers_follow (goal : Goal) (settled : Option Settled) :
    Registers (Next.rest? (.ok (.follow goal settled))) := by
  intro rest h
  unfold Next.follow at h
  split at h
  · cases h
  · cases h
    exact ⟨_, _, rfl⟩
  · cases h
  · cases h

theorem registers_afterReport (t : Task) (settled : Option Settled) :
    Registers (Next.rest? (.ok (.afterReport t settled))) := by
  intro rest h
  unfold Next.afterReport at h
  split at h
  · cases h
    exact ⟨_, _, rfl⟩
  · cases h

/-! ## The cases -/

namespace Activity

/-- What a step of an activity does to the store, and what is left of the activity. -/
inductive Moves (w : World) : Activity → List Store.Operation → Option Activity → Prop where
  | submitted {asset : Asset} {job : Job} {jobs : List Job} {ids : Directory String TaskId}
    {goal : Option Goal} {id : TaskId} : Moves w (.submit asset (job :: jobs) ids goal)
      [.createTask (Submission.newTask w.now asset.id id job)]
      (some (.submit asset jobs (ids.insert job.name id) goal))
  | refused {asset : Asset} {job : Job} {jobs : List Job} {ids : Directory String TaskId}
    {goal : Option Goal} {cause : Error} : Moves w (.submit asset (job :: jobs) ids goal) []
      (some (.abandon asset job.name cause))
  | counted {asset : Asset} {ids : Directory String TaskId} {goal : Goal}
    (h : ids.size < UInt32.size) : Moves w (.submit asset [] ids (some goal)) []
      (some (.expect asset (.ofNat ids.size) goal))
  | uncounted {asset : Asset} {ids : Directory String TaskId} {goal? : Option Goal}
    (h : goal? = none ∨ UInt32.size ≤ ids.size) : Moves w (.submit asset [] ids goal?) [] none
  | abandoned {asset : Asset} {job : String} {cause : Error} {ops : List Store.Operation}
    (h : w.Settlement asset.id (abandonedOutcome w.now asset job cause) ops) :
    Moves w (.abandon asset job cause) ops none
  | expected {asset : Asset} {count : UInt32} {goal : Goal} : Moves w (.expect asset count goal)
      [.setExpectedTasks asset.id count] (some (.evaluate asset.id goal))
  | evaluated {asset : AssetId} {goal : Goal} {ops : List Store.Operation}
    {rest? : Option Activity} (h : w.Deciding asset ops) (hrest : Registers rest?) :
    Moves w (.evaluate asset goal) ops rest?
  | inspected {asset : Asset} {goal : Goal} : Moves w (.inspect asset goal)
      [.setExpectedTasks asset.id 0] (some (.settle asset (inspectedOutcome w asset) goal))
  /-- The asset is not there any more. -/
  | vanished {a : Activity} {asset : Asset} (hcopy : a.copy? = some asset)
    (h : w.store.assets.get? asset.id = none) : Moves w a [] none
  | settled {asset : Asset} {o : Outcome} {goal : Goal} {ops : List Store.Operation}
    {rest? : Option Activity} (h : w.Settlement asset.id o ops) (hrest : Registers rest?) :
    Moves w (.settle asset o goal) ops rest?
  | received {id : TaskId} {entry : LogEntry} {t : Task}
    (hfinal : entry.progress.isTerminal = true) (ht : w.store.tasks.get? id = some t) :
    Moves w (.receive id entry) [] (some (.record t.asset id entry))
  | rejected {id : TaskId} {entry : LogEntry}
    (h : entry.progress.isTerminal = false ∨ w.store.tasks.get? id = none) :
    Moves w (.receive id entry) [] none
  | recorded {asset : AssetId} {id : TaskId} {entry : LogEntry} {t : Task} {s : Store}
    {ops : List Store.Operation} {rest? : Option Activity}
    (ht : w.store.appendTaskLog id entry = .ok (t, s))
    (h : World.Deciding { w with store := s } t.asset ops) (hrest : Registers rest?) :
    Moves w (.record asset id entry) (.appendTaskLog id entry :: ops) rest?
  | lost {asset : AssetId} {id : TaskId} {entry : LogEntry} (h : w.store.tasks.get? id = none) :
    Moves w (.record asset id entry) [] none
  | registered {table cache : Asset} {goal : Goal} : Moves w (.register table goal)
      [.createAsset cache] (some (.inspect cache goal))
  | unregistered {table : Asset} {goal : Goal} {ops : List Store.Operation}
    (h : ops = [] ∨ ∃ e, ops = [.appendVersionLog table.key e]) :
    Moves w (.register table goal) ops none
  | tornDown {actions : List TeardownAction} {error? : Option Error} {rest? : Option Activity}
    (h : ∀ rest, rest? = some rest → ∃ actions error?, rest = .tearDown actions error?) :
    Moves w (.tearDown actions error?) [] rest?

variable {w w' : World}

/-! ## Steps -/

/-- What is left of an activity does not depend on whether its answer is known. -/
theorem step_cases {a : Activity} {r : Except Error Next} (h : a.step.run w = (r, w')) :
    ∃ r₀, a.proceed.run w = (r₀, w') ∧ Next.rest? r = Next.rest? r₀ := by
  unfold step Flow.elseGive at h
  rw [Flow.run_ofRun] at h
  rcases hp : a.proceed.run w with ⟨e | next, w₁⟩
  · rw [hp] at h
    refine ⟨.error e, ?_⟩
    cases hk : a.knownAnswer? with
    | none =>
      rw [hk] at h
      cases h
      exact ⟨rfl, rfl⟩
    | some answer =>
      rw [hk] at h
      cases h
      exact ⟨rfl, rfl⟩
  · rw [hp] at h
    refine ⟨.ok next, ?_⟩
    cases hk : a.knownAnswer? with
    | none =>
      rw [hk] at h
      cases h
      exact ⟨rfl, rfl⟩
    | some answer =>
      rw [hk] at h
      cases h
      exact ⟨rfl, rfl⟩

/-- Without a known answer nothing is given where a step fails. -/
theorem step_run_of_unknown {a : Activity} (ha : a.knownAnswer? = none) (w : World) :
    a.step.run w = a.proceed.run w := by
  unfold step Flow.elseGive
  rw [Flow.run_ofRun, ha, Option.map_none]
  rcases a.proceed.run w with ⟨_ | _, _⟩ <;> rfl

/-- A step that does not fail gives what the program gives. -/
theorem step_run_of_ok {a : Activity} {next : Next} (h : a.proceed.run w = (.ok next, w')) :
    a.step.run w = (.ok next, w') := by
  unfold step Flow.elseGive
  rw [Flow.run_ofRun, h]

/-- What a program leaves of an activity, and what it does. -/
def Does (f : Flow Next) (a : Activity) (w : World) : Prop :=
  ∀ r w', f.run w = (r, w') → w'.ids.Distinct →
    ∃ ops, a.Moves w ops (Next.rest? r) ∧ w.Evolves ops w'

theorem submitNext_does (hw : w.Sound) (asset : Asset) (job : Job) (jobs : List Job)
    (ids : Directory String TaskId) (goal : Option Goal) :
    Does (submitNext asset job jobs ids goal) (.submit asset (job :: jobs) ids goal) w := by
  intro r w' h hd
  unfold submitNext at h
  rw [Flow.run_attempt_bind] at h
  generalize hs : (Submission.submitJob asset.id ids job).run w = res at h
  obtain ⟨r₁, w₁⟩ := res
  cases r₁ with
  | ok id =>
    cases h
    have hd₁ : w₁.ids.Distinct := hd
    rcases Submission.submitJob_cases hw hd₁ hs with ⟨id', hr, he⟩ | ⟨_, hr, _⟩
    · cases hr
      have hm := World.Evolves.measure (m := .jobSubmitted job.kind true) rfl w₁
      exact ⟨_, .submitted, he.trans hm⟩
    · cases hr
  | error cause =>
    cases h
    have hd₁ : w₁.ids.Distinct := hd
    rcases Submission.submitJob_cases hw hd₁ hs with ⟨_, hr, _⟩ | ⟨_, _, he⟩
    · cases hr
    · have hm := World.Evolves.measure (m := .jobSubmitted job.kind false) rfl w₁
      exact ⟨_, .refused, he.trans hm⟩

theorem concludeSubmission_does (asset : Asset) (ids : Directory String TaskId)
    (goal : Option Goal) :
    Does (concludeSubmission asset ids goal) (.submit asset [] ids goal) w := by
  intro r w' h _
  unfold concludeSubmission at h
  rw [Flow.run_measure_bind] at h
  have hm := World.Evolves.measure (m := .submissionTimed true) rfl w
  rcases Flow.run_check_bind_cases h with ⟨count, hc, h⟩ | ⟨e, hc, rfl, rfl⟩
  · simp only [taskCount, bind_eq_ok_iff, require_eq_ok_iff, decide_eq_true_eq] at hc
    obtain ⟨_, hsize, hc⟩ := hc
    cases hc
    cases goal with
    | none =>
      cases h
      exact ⟨[], .uncounted (Or.inl rfl), hm⟩
    | some goal =>
      cases h
      exact ⟨[], .counted hsize, hm⟩
  · refine ⟨[], .uncounted (Or.inr ?_), hm⟩
    by_contra hsize
    rw [Nat.not_le] at hsize
    unfold taskCount require at hc
    rw [if_pos (decide_eq_true hsize)] at hc
    cases hc

theorem abandonNow_does (hw : w.Sound) {asset : Asset} {job : String} {cause : Error}
    (hs : (abandon asset job cause).Suits w.store) :
    Does (abandonNow asset job cause) (.abandon asset job cause) w := by
  intro r w' h _
  unfold abandonNow at h
  rw [Flow.run_ofWorld_bind, Flow.run_measure_bind] at h
  cases h
  obtain ⟨ops, hops, he⟩ := World.settle_cases hw.wellFormed (Outcome.failed_fits asset _)
    (fun b hb => (hs.copy asset rfl b hb).isDefault) (Prod.eta _).symm
  have hm := World.Evolves.measure (m := .submissionTimed false) rfl
    (w.settle asset (abandonedOutcome w.now asset job cause)).2
  have hall := he.trans hm
  rw [List.append_nil] at hall
  exact ⟨ops, .abandoned hops, hall⟩

theorem expectTasks_does (asset : Asset) (count : UInt32) (goal : Goal) :
    Does (expectTasks asset count goal) (.expect asset count goal) w := by
  intro r w' h _
  unfold expectTasks at h
  rcases Flow.run_updateStore_bind_cases h with ⟨s, hs, h⟩ | ⟨e, hs, rfl, rfl⟩
  · cases h
    exact ⟨_, .expected, .perform (.setExpectedTasks hs) rfl rfl rfl⟩
  · exact ⟨[], .vanished rfl (Store.updateAsset_eq_error hs), .refl w'⟩

theorem inspectNow_does (asset : Asset) (goal : Goal) :
    Does (inspectNow asset goal) (.inspect asset goal) w := by
  intro r w' h _
  unfold inspectNow at h
  rw [Flow.run_read_bind] at h
  rcases Flow.run_updateStore_bind_cases h with ⟨s, hs, h⟩ | ⟨e, hs, rfl, rfl⟩
  · cases h
    exact ⟨_, .inspected, .perform (.setExpectedTasks hs) rfl rfl rfl⟩
  · exact ⟨[], .vanished rfl (Store.updateAsset_eq_error hs), .refl w'⟩

theorem evaluate_does (hw : w.Sound) (asset : AssetId) (goal : Goal) :
    Does (Next.follow goal <$> Flow.ofWorld (·.settleByTasks asset)) (.evaluate asset goal) w := by
  intro r w' h _
  rcases Flow.run_map_cases h with ⟨settled, hf, rfl⟩ | ⟨_, hf, _⟩
  · have hf' : w.settleByTasks asset = (settled, w') := by
      cases hf
      rfl
    obtain ⟨ops, hops, he⟩ := World.settleByTasks_cases hw.wellFormed hf'
    exact ⟨ops, .evaluated hops (registers_follow goal settled), he⟩
  · cases hf

theorem settle_does (hw : w.Sound) {asset : Asset} {o : Outcome} {goal : Goal}
    (hs : (settle asset o goal).Suits w.store) :
    Does (Next.follow goal <$> Flow.ofWorld (·.settle asset o)) (.settle asset o goal) w := by
  intro r w' h _
  rcases Flow.run_map_cases h with ⟨settled, hf, rfl⟩ | ⟨_, hf, _⟩
  · have hf' : w.settle asset o = (settled, w') := by
      cases hf
      rfl
    obtain ⟨ops, hops, he⟩ := World.settle_cases hw.wellFormed (hs.outcome asset o goal rfl)
      (fun b hb => (hs.copy asset rfl b hb).isDefault) hf'
    exact ⟨ops, .settled hops (registers_follow goal settled), he⟩
  · cases hf

theorem receiveReport_does (id : TaskId) (entry : LogEntry) :
    Does (receiveReport id entry) (.receive id entry) w := by
  intro r w' h _
  unfold receiveReport at h
  rcases Flow.run_check_bind_cases h with ⟨_, hfinal, h⟩ | ⟨e, hfinal, rfl, rfl⟩
  · rw [Flow.run_measure_bind, Flow.run_check_read_bind] at h
    rw [require_eq_ok_iff] at hfinal
    have hm := World.Evolves.measure (m := .taskReported entry.progress) rfl w
    rcases Flow.run_check_bind_cases h with ⟨t, ht, h⟩ | ⟨e, ht, rfl, rfl⟩
    · cases h
      exact ⟨[], .received hfinal (orElseFail_eq_ok_iff.mp ht), hm⟩
    · refine ⟨[], .rejected (Or.inr ?_), hm⟩
      have ht' : w.store.task id = .error e := ht
      cases hn : w.store.tasks.get? id with
      | none => rfl
      | some t =>
        unfold Store.task at ht'
        rw [hn] at ht'
        cases ht'
  · refine ⟨[], .rejected (Or.inl ?_), .refl w'⟩
    cases hp : entry.progress.isTerminal with
    | false => rfl
    | true =>
      rw [hp] at hfinal
      cases hfinal

theorem recordReport_does (hw : w.Sound) (asset : AssetId) (id : TaskId) (entry : LogEntry) :
    Does (recordReport id entry) (.record asset id entry) w := by
  intro r w' h _
  unfold recordReport at h
  rcases Flow.run_takeFromStore_bind_cases h with ⟨t, s, hs, h⟩ | ⟨e, hs, rfl, rfl⟩
  · have he : w.Evolves [.appendTaskLog id entry] { w with store := s } :=
      .perform (.appendTaskLog hs) rfl rfl rfl
    rw [Flow.run_ofWorld_bind] at h
    cases h
    obtain ⟨ops, hops, he'⟩ := World.settleByTasks_cases (he.store.wellFormed hw.wellFormed)
      (x := t.asset) (Prod.eta _).symm
    exact ⟨_, .recorded hs hops (registers_afterReport t _), he.trans he'⟩
  · refine ⟨[], .lost ?_, .refl w'⟩
    cases hn : w'.store.tasks.get? id with
    | none => rfl
    | some t =>
      unfold Store.appendTaskLog Store.task at hs
      rw [hn] at hs
      cases hs

theorem registerNow_does (table : Asset) (goal : Goal) :
    Does (registerNow table goal) (.register table goal) w := by
  intro r w' h _
  unfold registerNow at h
  rw [Flow.run_attempt_bind] at h
  generalize hfile : (TileCache.file table).run w = res at h
  obtain ⟨r₁, w₁⟩ := res
  cases r₁ with
  | ok cache =>
    cases h
    rcases TileCache.file_cases hfile with ⟨_, hr, he⟩ | ⟨_, hr, _⟩
    · cases hr
      exact ⟨_, .registered, he⟩
    · cases hr
  | error e =>
    rcases TileCache.file_cases hfile with ⟨_, hr, _⟩ | ⟨_, _, he⟩
    · cases hr
    dsimp only at h
    rw [Flow.run_read_bind] at h
    rcases Flow.run_updateStore_bind_cases h with ⟨s, hs, h⟩ | ⟨e, _, rfl, rfl⟩
    · have hnone : Next.rest? r = none := by
        cases h
        unfold Next.follow
        split <;> first | rfl | contradiction
      cases h
      rw [hnone]
      exact ⟨_, .unregistered (Or.inr ⟨_, rfl⟩),
        he.trans (.perform (.appendVersionLog hs) rfl rfl rfl)⟩
    · exact ⟨_, .unregistered (Or.inl rfl), he⟩

theorem takeAction_does (action : TeardownAction) (actions : List TeardownAction)
    (error? : Option Error) :
    Does (takeAction action actions error?) (.tearDown (action :: actions) error?) w := by
  intro r w' h _
  unfold takeAction at h
  rw [Flow.run_attempt_bind] at h
  have he : w.Evolves [] ((Flow.updateServices (action.run ·)).run w).2 := by
    unfold Flow.updateServices
    rw [Flow.run_ofRun]
    split
    · exact .of_eq rfl rfl rfl
    · exact .refl w
  generalize (Flow.updateServices (action.run ·)).run w = res at h he
  obtain ⟨r₁, w₁⟩ := res
  have htears : ∀ error?' : Option Error, ∀ rest,
      some (Activity.tearDown actions error?') = some rest →
        ∃ actions error?, rest = .tearDown actions error? := by
    rintro error?' rest hrest
    cases hrest
    exact ⟨_, _, rfl⟩
  cases r₁ with
  | ok _ =>
    cases h
    have hm := World.Evolves.measure (m := .teardownStep action.name true) rfl w₁
    exact ⟨[], .tornDown (htears _), he.trans hm⟩
  | error e =>
    cases h
    have hm := World.Evolves.measure (m := .teardownStep action.name false) rfl w₁
    exact ⟨[], .tornDown (htears _), he.trans hm⟩

/-- There is no other way in which a step can end. -/
theorem step_moves {a : Activity} {r : Except Error Next} (hw : w.Sound) (hs : a.Suits w.store)
    (h : a.step.run w = (r, w')) (hd : w'.ids.Distinct) :
    ∃ ops, a.Moves w ops (Next.rest? r) ∧ w.Evolves ops w' := by
  obtain ⟨r₀, hp, hr⟩ := step_cases h
  rw [hr]
  cases a with
  | submit asset jobs ids goal =>
    cases jobs with
    | nil => exact concludeSubmission_does asset ids goal r₀ w' hp hd
    | cons job jobs => exact submitNext_does hw asset job jobs ids goal r₀ w' hp hd
  | abandon => exact abandonNow_does hw hs r₀ w' hp hd
  | expect => exact expectTasks_does _ _ _ r₀ w' hp hd
  | evaluate => exact evaluate_does hw _ _ r₀ w' hp hd
  | inspect => exact inspectNow_does _ _ r₀ w' hp hd
  | settle => exact settle_does hw hs r₀ w' hp hd
  | receive => exact receiveReport_does _ _ r₀ w' hp hd
  | record => exact recordReport_does hw _ _ _ r₀ w' hp hd
  | register => exact registerNow_does _ _ r₀ w' hp hd
  | tearDown actions error? =>
    cases actions with
    | cons action actions => exact takeAction_does action actions error? r₀ w' hp hd
    | nil =>
      have hnone : ∀ rest, (none : Option Activity) = some rest →
          ∃ actions error?, rest = .tearDown actions error? := by
        intro rest hrest
        cases hrest
      cases error? with
      | none =>
        cases hp
        exact ⟨[], .tornDown hnone, .refl w⟩
      | some e =>
        cases hp
        exact ⟨[], .tornDown hnone, .refl w⟩

/-! ## Runs -/

/-- A run takes one step and then goes on with what is left. -/
theorem run_of_goOn {a rest : Activity} (h : a.step.run w = (.ok (.goOn rest), w')) :
    a.run w = rest.run w' := by
  rw [run]
  split <;> simp_all

theorem run_of_finished {a : Activity} {answer : Answer}
    (h : a.step.run w = (.ok (.finished answer), w')) : a.run w = (.ok answer, w') := by
  rw [run]
  split <;> simp_all

theorem run_of_error {a : Activity} {e : Error} (h : a.step.run w = (.error e, w')) :
    a.run w = (.error e, w') := by
  rw [run]
  split <;> simp_all

end Activity

end GeoAssets
