import GeoAssets.Proofs.Run.Places
import GeoAssets.Proofs.Run.Recreation

/-!
# Attempts at teardown

A piece of work that tears something down goes through its actions in order and tries each of them
once, whatever became of those before (`Orchestrator.TriesAll`). Which of them fail is not up to the
piece: services may go out of order and come back between any two of its steps. An action that fails
changes nothing; the others do what they do by themselves. At its end the piece gives the error of
the first action that failed, if there is one.
-/

namespace GeoAssets

/-! ## Actions and services out of order -/

/-- The services once all of them are put in order. -/
def Services.inOrder (s : Services) : Services :=
  (((s.setObjectsDown false).setDistributionDown false).setDatabaseDown false).setTilesDown false

namespace TeardownAction

variable {s s' : Services} {action : TeardownAction}

/-- Decides whether the service that an action needs is out of order. -/
def isBlocked (s : Services) : TeardownAction → Bool
  | .dropTable .. => s.database.isDown
  | .deleteObject .. | .deleteUnder .. => s.objects.isDown
  | .invalidate .. => s.distribution.isDown

/-- The error of an action whose service is out of order. -/
def refusal : TeardownAction → Error
  | .dropTable .. => .collaborator "database" "drop failed"
  | .deleteObject .. | .deleteUnder .. => .collaborator "object store" "delete rejected"
  | .invalidate .. => .collaborator "cdn" "invalidation rejected"

/-- The services after an action that is not blocked. -/
def perform (s : Services) : TeardownAction → Services
  | .dropTable dataset version =>
    { s with database := { s.database with
      tables := s.database.tables.erase (dataset, version)
      dropped := s.database.dropped ++ [(dataset, version)] } }
  | .deleteObject bucket key =>
    { s with objects := { s.objects with
      objects := s.objects.objects.filter (· != (bucket, key))
      deleted := s.objects.deleted ++ [(bucket, key)] } }
  | .deleteUnder bucket start =>
    { s with objects := { s.objects with
      objects := s.objects.objects.filter (!ObjectService.isUnder bucket start ·)
      deleted := s.objects.deleted ++ [(bucket, start)] } }
  | .invalidate id paths =>
    { s with distribution := { s.distribution with
      invalidations := s.distribution.invalidations ++ [(id, paths)] } }

/-- An action fails if it is blocked, and only then. -/
theorem run_eq (s : Services) (action : TeardownAction) :
    action.run s =
      if action.isBlocked s then .error action.refusal else .ok (action.perform s) := by
  have hrequire : ∀ {α : Type} (isDown : Bool) (e : Error) (a : α),
      (do require (!isDown) e; pure a) = if isDown then Except.error e else .ok a := by
    intro α isDown e a
    cases isDown <;> rfl
  cases action with
  | dropTable dataset version =>
    unfold run
    simp only [Database.dropTable, bind_assoc, pure_bind]
    exact hrequire ..
  | deleteObject bucket key =>
    simp only [run, ObjectService.delete, bind_assoc, pure_bind]
    exact hrequire ..
  | deleteUnder bucket start =>
    simp only [run, ObjectService.deleteUnder, bind_assoc, pure_bind]
    exact hrequire ..
  | invalidate id paths =>
    simp only [run, Distribution.invalidate, bind_assoc, pure_bind]
    exact hrequire ..

theorem isBlocked_perform (action other : TeardownAction) (s : Services) :
    other.isBlocked (action.perform s) = other.isBlocked s := by
  cases action <;> cases other <;> rfl

theorem perform_inOrder (s : Services) (action : TeardownAction) :
    action.perform s.inOrder = (action.perform s).inOrder := by
  cases action <;> rfl

theorem isBlocked_inOrder (s : Services) (action : TeardownAction) :
    action.isBlocked s.inOrder = false := by
  cases action <;> rfl

/-- The error with which an action fails, if it does. -/
def failure? (s : Services) (action : TeardownAction) : Option Error :=
  match action.run s with
  | .ok _ => none
  | .error e => some e

theorem failure?_eq (s : Services) (action : TeardownAction) :
    action.failure? s = if action.isBlocked s then some action.refusal else none := by
  rw [failure?, run_eq]
  cases action.isBlocked s <;> rfl

/-- Whether an action fails does not depend on those that were taken before. -/
theorem failure?_of_run (h : action.run s = .ok s') (other : TeardownAction) :
    other.failure? s' = other.failure? s := by
  rw [run_eq] at h
  split at h
  · cases h
  · cases h
    rw [failure?_eq, failure?_eq, isBlocked_perform]

/-- An action that is taken would do the same if all services were in order. -/
theorem run_inOrder (h : action.run s = .ok s') : action.run s.inOrder = .ok s'.inOrder := by
  rw [run_eq] at h
  split at h
  · cases h
  · cases h
    rw [run_eq, isBlocked_inOrder, perform_inOrder]
    rfl

end TeardownAction

/-! ## Attempts -/

/-- An action that a piece of work has tried, with the error if it failed. -/
structure Attempt where
  action : TeardownAction
  error? : Option Error
  deriving DecidableEq, Repr

namespace Attempt

/-- Decides whether an attempt has succeeded. -/
def succeeded (a : Attempt) : Bool :=
  a.error?.isNone

/-- What is counted for an attempt. -/
def measurement (a : Attempt) : Measurement :=
  .teardownStep a.action.name a.succeeded

/-- The actions that were taken, of those that were tried. -/
def taken (attempts : List Attempt) : List TeardownAction :=
  (attempts.filter (·.succeeded)).map (·.action)

/-- The first error of some attempts. -/
def firstError? (attempts : List Attempt) : Option Error :=
  attempts.findSome? (·.error?)

theorem firstError?_cons (a : Attempt) (attempts : List Attempt) :
    firstError? (a :: attempts) = a.error?.or (firstError? attempts) := by
  unfold firstError?
  rw [List.findSome?_cons]
  cases a.error? <;> rfl

end Attempt

/-- What an attempt does to the world. -/
inductive World.Tries (w : World) : Attempt → World → Prop where
  | taken {action : TeardownAction} {s : Services} (h : action.run w.services = .ok s) :
    w.Tries ⟨action, none⟩
      (({ w with services := s } : World).measure (.teardownStep action.name true))
  | failed {action : TeardownAction} {e : Error} (h : action.run w.services = .error e) :
    w.Tries ⟨action, some e⟩ (w.measure (.teardownStep action.name false))

namespace World.Tries

variable {w w' : World} {a : Attempt}

theorem measurements (h : w.Tries a w') : w'.measurements = a.measurement :: w.measurements := by
  cases h <;> rfl

theorem error?_eq (h : w.Tries a w') : a.error? = a.action.failure? w.services := by
  cases h with
  | taken hr => rw [TeardownAction.failure?, hr]
  | failed hr => rw [TeardownAction.failure?, hr]

theorem failure?_eq (h : w.Tries a w') (action : TeardownAction) :
    action.failure? w'.services = action.failure? w.services := by
  cases h with
  | taken hr => exact TeardownAction.failure?_of_run hr action
  | failed => rfl

/-- What follows an attempt follows the action of the attempt, if it was taken. -/
theorem foldlM_cons (h : w.Tries a w') {attempts : List Attempt} {s : Services}
    (hs : (Attempt.taken attempts).foldlM TeardownAction.run w'.services.inOrder = .ok s) :
    (Attempt.taken (a :: attempts)).foldlM TeardownAction.run w.services.inOrder = .ok s := by
  cases h with
  | taken hr =>
    rw [Attempt.taken, List.filter_cons_of_pos rfl, List.map_cons, List.foldlM_cons,
      TeardownAction.run_inOrder hr]
    exact hs
  | failed => exact hs

end World.Tries

/-- Decides whether an event is a step of a piece of work. -/
def Event.isStepOf (n : Nat) : Event → Bool
  | .advance m => m == n
  | _ => false

theorem Event.isStepOf_iff {n : Nat} {e : Event} : e.isStepOf n = true ↔ e = .advance n := by
  cases e <;> simp [isStepOf]

/-- The result of a piece of work that tears something down, given its first error. -/
def Activity.tornDown : Option Error → Except Error Answer
  | none => .ok .done
  | some e => .error e

namespace Orchestrator

variable {o : Orchestrator} {n : Nat} {rest actions : List TeardownAction} {error? : Option Error}

/-- The attempt that an event makes for a piece of work. -/
def attempt? (o : Orchestrator) (n : Nat) (e : Event) : Option Attempt :=
  if e.isStepOf n then
    match o.workAt n with
    | some (.tearDown (action :: _) _) => some ⟨action, action.failure? o.world.services⟩
    | _ => none
  else none

/-- The attempts of a piece of work during some events. -/
def attempts (o : Orchestrator) (n : Nat) : List Event → List Attempt
  | [] => []
  | e :: es => (o.attempt? n e).toList ++ (o.handle e).attempts n es

/-! ## One step -/

/-- What a step of a piece of work does that has some actions left. -/
inductive Tears (o : Orchestrator) (n : Nat) :
    List TeardownAction → Option Error → Orchestrator → Prop where
  | tried {o' : Orchestrator} {action : TeardownAction} {rest : List TeardownAction}
    {error? : Option Error} {a : Attempt} (hattempt : o.attempt? n (.advance n) = some a)
    (haction : a.action = action) (world : o.world.Tries a o'.world)
    (work : o'.workAt n = some (.tearDown rest (error?.or a.error?)))
    (ending : o'.endingAt n = o.endingAt n) : o.Tears n (action :: rest) error? o'
  | ended {o' : Orchestrator} {error? : Option Error}
    (hattempt : o.attempt? n (.advance n) = none) (world : o'.world = o.world)
    (work : o'.workAt n = none)
    (ending : o'.endingAt n = some (.returned (Activity.tornDown error?))) : o.Tears n [] error? o'

theorem attempt?_advance (hwork : o.workAt n = some (.tearDown rest error?)) :
    o.attempt? n (.advance n) =
      rest.head?.map fun action => ⟨action, action.failure? o.world.services⟩ := by
  rw [attempt?, if_pos (Event.isStepOf_iff.mpr rfl), hwork]
  cases rest <;> rfl

theorem tears_advance (hwork : o.workAt n = some (.tearDown rest error?)) :
    o.Tears n rest error? (o.advance n) := by
  have hattempt := attempt?_advance hwork
  rw [advance_of_unlocked hwork rfl]
  cases rest with
  | nil =>
    cases error? with
    | none =>
      obtain ⟨hworld, hwork', hending⟩ := takeStep_self hwork (Activity.tearDown_step_done o.world)
      exact .ended hattempt hworld hwork' hending
    | some e =>
      obtain ⟨hworld, hwork', hending⟩ :=
        takeStep_self hwork (Activity.tearDown_step_failed o.world e)
      exact .ended hattempt hworld hwork' hending
  | cons action rest =>
    rw [List.head?_cons, Option.map_some, TeardownAction.failure?] at hattempt
    cases hr : action.run o.world.services with
    | ok s =>
      rw [hr] at hattempt
      obtain ⟨hworld, hwork', hending⟩ := takeStep_self hwork (Activity.tearDown_step_ok hr)
      refine .tried hattempt rfl ?_ ?_ hending
      · rw [hworld]
        exact .taken hr
      · rw [hwork', Option.or_none]
        rfl
    | error e =>
      rw [hr] at hattempt
      obtain ⟨hworld, hwork', hending⟩ := takeStep_self hwork (Activity.tearDown_step_error hr)
      refine .tried hattempt rfl ?_ hwork' hending
      rw [hworld]
      exact .failed hr

/-- Nobody else makes attempts for a piece of work. -/
theorem attempt?_of_ne {e : Event} (he : e ≠ .advance n) : o.attempt? n e = none :=
  if_neg fun h => he (Event.isStepOf_iff.mp h)

/-- A piece of work that has ended makes no attempt. -/
theorem attempt?_of_ended (hwork : o.workAt n = none) (e : Event) : o.attempt? n e = none := by
  unfold attempt?
  rw [hwork]
  split <;> rfl

/-! ## All steps -/

/-- Where a piece of work stands that had some actions left, after some attempts and steps. -/
inductive Stands (o' : Orchestrator) (n : Nat) (actions : List TeardownAction)
    (error? : Option Error) (attempts : List Attempt) (steps : Nat) : Prop where
  | underway {rest : List TeardownAction} (hactions : attempts.map (·.action) ++ rest = actions)
    (hsteps : attempts.length = steps)
    (work : o'.workAt n = some (.tearDown rest (error?.or (Attempt.firstError? attempts))))
  | ended (hactions : attempts.map (·.action) = actions) (hsteps : attempts.length < steps)
    (work : o'.workAt n = none)
    (ending : o'.endingAt n =
      some (.returned (Activity.tornDown (error?.or (Attempt.firstError? attempts)))))

/-- After its end a piece of work makes no attempt any more. -/
theorem after_ended {o : Orchestrator} (hwork : o.workAt n = none)
    (hn : n < o.background.started) (es : List Event) :
    o.attempts n es = [] ∧ (o.after es).workAt n = none ∧
      (o.after es).endingAt n = o.endingAt n := by
  induction es generalizing o with
  | nil => exact ⟨rfl, hwork, rfl⟩
  | cons e es ih =>
    have hsame : (o.handle e).workAt n = none ∧ (o.handle e).endingAt n = o.endingAt n := by
      by_cases he : e = .advance n
      · subst he
        exact (advance_of_none hwork).2
      · have h := handle_sameAt he hn
        exact ⟨h.workAt.trans hwork, h.ending⟩
    obtain ⟨hattempts, hwork', hending⟩ :=
      ih hsame.1 (Nat.lt_of_lt_of_le hn (o.started_handle_le e))
    refine ⟨?_, hwork', hending.trans hsame.2⟩
    rw [attempts, attempt?_of_ended hwork, hattempts]
    rfl

/-- Every step of the piece makes one attempt, until the actions are used up. -/
theorem stands_after {o : Orchestrator} (hn : n < o.background.started)
    (hwork : o.workAt n = some (.tearDown actions error?)) (es : List Event) :
    (o.after es).Stands n actions error? (o.attempts n es) (es.countP (·.isStepOf n)) := by
  induction es generalizing o actions error? with
  | nil =>
    refine .underway rfl rfl (hwork.trans ?_)
    cases error? <;> rfl
  | cons e es ih =>
    have hn' := Nat.lt_of_lt_of_le hn (o.started_handle_le e)
    rw [after_cons, attempts]
    by_cases he : e = .advance n
    · subst he
      rw [List.countP_cons_of_pos (Event.isStepOf_iff.mpr rfl)]
      have hstep : o.Tears n actions error? (o.handle (.advance n)) := tears_advance hwork
      generalize o.handle (.advance n) = o' at hstep hn' ih ⊢
      cases hstep with
      | @tried _ action rest _ a hattempt haction _ work _ =>
        rw [hattempt, Option.toList_some, List.singleton_append]
        have hor : (error?.or a.error?).or (Attempt.firstError? (o'.attempts n es)) =
            error?.or (Attempt.firstError? (a :: o'.attempts n es)) := by
          rw [Option.or_assoc, Attempt.firstError?_cons]
        cases ih hn' work with
        | @underway left hactions hsteps work' =>
          have hall : (a :: o'.attempts n es).map (·.action) ++ left = action :: rest := by
            rw [List.map_cons, haction, List.cons_append, hactions]
          refine .underway hall (congrArg (· + 1) hsteps) ?_
          rw [work', hor]
        | ended hactions hsteps work' ending' =>
          refine .ended ?_ (Nat.succ_lt_succ hsteps) work' ?_
          · rw [List.map_cons, haction, hactions]
          · rw [ending', hor]
      | ended hattempt _ work ending =>
        obtain ⟨hnone, hwork', hending'⟩ := after_ended work hn' es
        rw [hattempt, Option.toList_none, List.nil_append, hnone]
        refine .ended rfl (Nat.succ_pos _) hwork' ?_
        rw [hending', ending]
        cases error? <;> rfl
    · -- other events leave the piece where it is
      have hsame := handle_sameAt he hn
      rw [List.countP_cons_of_neg (fun h => he (Event.isStepOf_iff.mp h)), attempt?_of_ne he]
      exact ih hn' (hsame.workAt.trans hwork)

/-! ## What attempts lead to -/

/-- The next step of a piece of work does what its attempt does, or nothing. -/
def TakesStep (o : Orchestrator) (n : Nat) : Prop :=
  match o.attempt? n (.advance n) with
  | some a => o.world.Tries a (o.handle (.advance n)).world
  | none => (o.handle (.advance n)).world = o.world

/-- Besides the steps of a piece of work nothing happens to the services but that they go out of
order or come back. -/
def Switches (o : Orchestrator) (n : Nat) : List Event → Prop
  | [] => True
  | e :: es =>
    (e.isStepOf n = true ∨
      ∃ s, e = .surround s ∧ s.services.inOrder = o.world.services.inOrder) ∧
    (o.handle e).Switches n es

/-- What a piece of work with some actions makes of them during some events. -/
structure TriesAll (o : Orchestrator) (n : Nat) (actions : List TeardownAction)
    (es : List Event) : Prop where
  /-- Each step is an attempt at the next action, whether or not those before have failed. -/
  inOrder : (o.attempts n es).map (·.action) = actions.take (es.countP (·.isStepOf n))
  ends : (o.after es).workAt n = none ↔ actions.length < es.countP (·.isStepOf n)
  /-- At its end the piece gives the first error. -/
  result : (o.after es).workAt n = none → (o.after es).endingAt n =
    some (.returned (Activity.tornDown (Attempt.firstError? (o.attempts n es))))
  /-- An attempt does what its action does by itself, and is counted; other steps do nothing. -/
  effect : ∀ es₁ es₂, es = es₁ ++ .advance n :: es₂ → (o.after es₁).TakesStep n
  /-- If only the steps go on, it is settled beforehand which actions fail. -/
  alone : (∀ e ∈ es, e.isStepOf n = true) →
    ∀ a ∈ o.attempts n es, a.error? = a.action.failure? o.world.services
  /-- If others do no more than to put services out of order or in order, the services are in the
  end as if just the actions that have not failed had been taken. -/
  services : o.Switches n es →
    (Attempt.taken (o.attempts n es)).foldlM TeardownAction.run o.world.services.inOrder =
      .ok (o.after es).world.services.inOrder
  measurements : o.Switches n es → (o.after es).world.measurements =
    ((o.attempts n es).map (·.measurement)).reverse ++ o.world.measurements

/-- A piece of work tears something down, or has ended. -/
def IsTeardown (o : Orchestrator) (n : Nat) : Prop :=
  o.workAt n = none ∨ ∃ rest error?, o.workAt n = some (.tearDown rest error?)

theorem IsTeardown.takesStep (h : o.IsTeardown n) : o.TakesStep n := by
  unfold TakesStep
  rcases h with hnone | ⟨rest, error?, hwork⟩
  · rw [attempt?_of_ended hnone]
    exact (advance_of_none hnone).1
  · have hstep : o.Tears n rest error? (o.handle (.advance n)) := tears_advance hwork
    generalize o.handle (.advance n) = o' at hstep ⊢
    cases hstep with
    | tried hattempt _ world => rwa [hattempt]
    | ended hattempt world => rwa [hattempt]

theorem IsTeardown.handle (h : o.IsTeardown n) (hn : n < o.background.started) (e : Event) :
    (o.handle e).IsTeardown n := by
  rcases h with hnone | ⟨rest, error?, hwork⟩
  · exact Or.inl (after_ended hnone hn [e]).2.1
  · cases stands_after hn hwork [e] with
    | underway _ _ work => exact Or.inr ⟨_, _, work⟩
    | ended _ _ work => exact Or.inl work

theorem IsTeardown.after {o : Orchestrator} (h : o.IsTeardown n) (hn : n < o.background.started)
    (es : List Event) : (o.after es).IsTeardown n := by
  induction es generalizing o with
  | nil => exact h
  | cons e es ih => exact ih (h.handle hn e) (Nat.lt_of_lt_of_le hn (o.started_handle_le e))

/-- If only the steps of the piece go on, no service goes out of order or comes back. -/
theorem IsTeardown.error?_of_mem {o : Orchestrator} (h : o.IsTeardown n)
    (hn : n < o.background.started) {es : List Event} (hes : ∀ e ∈ es, e.isStepOf n = true)
    {a : Attempt} (ha : a ∈ o.attempts n es) :
    a.error? = a.action.failure? o.world.services := by
  induction es generalizing o with
  | nil => cases ha
  | cons e es ih =>
    obtain ⟨he, hrest⟩ := List.forall_mem_cons.mp hes
    rw [Event.isStepOf_iff] at he
    subst he
    have hstep := h.takesStep
    have hn' := Nat.lt_of_lt_of_le hn (o.started_handle_le (.advance n))
    have htail := ih (h.handle hn (.advance n)) hn' hrest
    unfold TakesStep at hstep
    rw [attempts] at ha
    cases hattempt : o.attempt? n (.advance n) with
    | none =>
      rw [hattempt] at hstep ha
      rw [← hstep]
      exact htail ha
    | some b =>
      rw [hattempt] at hstep ha
      rcases List.mem_cons.mp ha with rfl | ha
      · exact hstep.error?_eq
      · rw [htail ha, hstep.failure?_eq]

/-- The services and the counters, if others do no more than to put services out of order or in
order. -/
theorem IsTeardown.world_after {o : Orchestrator} (h : o.IsTeardown n)
    (hn : n < o.background.started) {es : List Event} (hes : o.Switches n es) :
    (Attempt.taken (o.attempts n es)).foldlM TeardownAction.run o.world.services.inOrder =
        .ok (o.after es).world.services.inOrder ∧
      (o.after es).world.measurements =
        ((o.attempts n es).map (·.measurement)).reverse ++ o.world.measurements := by
  induction es generalizing o with
  | nil => exact ⟨rfl, rfl⟩
  | cons e es ih =>
    obtain ⟨he, hes⟩ := hes
    obtain ⟨hservices, hmeasurements⟩ :=
      ih (h.handle hn e) (Nat.lt_of_lt_of_le hn (o.started_handle_le e)) hes
    rw [after_cons, attempts]
    rcases he with he | ⟨s, rfl, hs⟩
    · rw [Event.isStepOf_iff] at he
      subst he
      have hstep := h.takesStep
      unfold TakesStep at hstep
      cases hattempt : o.attempt? n (.advance n) with
      | none =>
        rw [hattempt] at hstep
        rw [hstep] at hservices hmeasurements
        exact ⟨hservices, hmeasurements⟩
      | some a =>
        rw [hattempt] at hstep
        rw [Option.toList_some, List.singleton_append, List.map_cons, List.reverse_cons,
          List.append_assoc, hmeasurements, hstep.measurements]
        exact ⟨hstep.foldlM_cons hservices, rfl⟩
    · rw [attempt?_of_ne (e := .surround s) Event.noConfusion]
      refine ⟨?_, hmeasurements⟩
      rw [← hs]
      exact hservices

/-- Whatever else goes on, a piece of work that tears something down tries all its actions. -/
theorem tearDown_triesAll {o : Orchestrator} {n : Nat} {actions : List TeardownAction}
    {es : List Event} (hn : n < o.background.started)
    (hwork : o.workAt n = some (.tearDown actions none)) : o.TriesAll n actions es := by
  have hteardown : o.IsTeardown n := Or.inr ⟨_, _, hwork⟩
  have hstands := stands_after hn hwork es
  constructor
  case inOrder =>
    cases hstands with
    | underway hactions hsteps =>
      rw [← hsteps, ← hactions, ← List.length_map (·.action), List.take_left]
    | ended hactions hsteps =>
      rw [hactions, List.take_of_length_le]
      rw [← hactions, List.length_map]
      exact Nat.le_of_lt hsteps
  case ends =>
    cases hstands with
    | underway hactions hsteps work =>
      rw [← hactions, ← hsteps, List.length_append, List.length_map, work]
      simp
    | ended hactions hsteps work =>
      rw [← hactions, List.length_map]
      exact iff_of_true work hsteps
  case result =>
    intro hnone
    cases hstands with
    | underway _ _ work =>
      rw [hnone] at work
      cases work
    | ended _ _ _ ending => exact ending
  case effect => exact fun es₁ _ _ => (hteardown.after hn es₁).takesStep
  case alone => exact fun hes a ha => hteardown.error?_of_mem hn hes ha
  case services => exact fun hes => (hteardown.world_after hn hes).1
  case measurements => exact fun hes => (hteardown.world_after hn hes).2

/-! ## A run -/

namespace Sample

/-- Some services are put out of order. -/
def outage (services : Services) : Event :=
  .surround {
    now := ⟨0, 0⟩, services := services, refused := [], histories := {}, rejectedTaskWrites := 0 }

/-- The version is deleted. -/
def versionLeft : List Event :=
  versionFiled ++ [.command (.deleteVersion ⟨"d", "v1"⟩)]

/-- The database comes back after the first step, and the distribution fails meanwhile. -/
def databaseBack : List Event :=
  [outage { database := { isDown := true } }, .advance 1,
    outage { distribution := { isDown := true } }] ++ List.replicate 4 (.advance 1)

end Sample

set_option maxRecDepth 100000 in
theorem versionLeft_triesAll : ∃ o, o = Sample.start.after Sample.versionLeft ∧
    1 < o.background.started ∧
    o.workAt 1 = some (.tearDown (Teardown.ofVersion .standard ⟨"d", "v1"⟩) none) ∧
    (o.attempts 1 Sample.databaseBack).map (·.error?) =
      [some (.collaborator "database" "drop failed"), none, none,
        some (.collaborator "cdn" "invalidation rejected")] ∧
    o.TriesAll 1 (Teardown.ofVersion .standard ⟨"d", "v1"⟩) Sample.databaseBack := by
  have hn : 1 < (Sample.start.after Sample.versionLeft).background.started := by decide +kernel
  have hwork : (Sample.start.after Sample.versionLeft).workAt 1 =
      some (.tearDown (Teardown.ofVersion .standard ⟨"d", "v1"⟩) none) := by
    have hgrants : (Sample.start.after Sample.versionFiled).Grants
        (.deleteVersion ⟨"d", "v1"⟩) := by decide +kernel
    have hone : (Sample.start.after Sample.versionFiled).background.started = 1 := by
      decide +kernel
    have hsettings : (Sample.start.after Sample.versionFiled).world.settings = .standard :=
      after_settings _ _
    obtain ⟨_, hok⟩ := grants_iff.mp hgrants
    rw [Sample.versionLeft, after_concat, ← hone, ← hsettings]
    exact workAt_deleteVersion hok
  refine ⟨_, rfl, hn, hwork, ?_, tearDown_triesAll hn hwork⟩
  decide +kernel

end Orchestrator

end GeoAssets
