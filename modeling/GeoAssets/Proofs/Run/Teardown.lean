import GeoAssets.Proofs.Lifecycle.Teardown
import GeoAssets.Proofs.Lifecycle.Within
import GeoAssets.Proofs.Run.Ids
import GeoAssets.Proofs.Run.Pieces

/-!
# Teardown in the background

A piece of work that takes teardown actions (`Orchestrator.TearsDown`) removes what the actions name
and nothing else, whatever goes on between its steps. Once it has ended without an error nothing is
left of what the actions name, unless somebody brought it in meanwhile; if nothing else goes on and
the services are in order, it does end so.
-/

namespace GeoAssets

/-! ## Nothing new -/

/-- No object and no table is new. -/
structure World.Shrinks (w w' : World) : Prop where
  objects : ∀ object ∈ w'.services.objects.objects, object ∈ w.services.objects.objects
  tables : ∀ table, w.services.database.tables.get? table = none →
    w'.services.database.tables.get? table = none

theorem World.Shrinks.of_eq {w w' : World} (hobjects : w'.services.objects = w.services.objects)
    (htables : w'.services.database = w.services.database) : w.Shrinks w' where
  objects := fun _ h => by
    rw [hobjects] at h
    exact h
  tables := fun _ h => by
    rw [htables]
    exact h

instance : World.Permits World.Shrinks where
  refl := fun _ => .of_eq rfl rfl
  trans := fun h h' => ⟨fun object hobject => h.objects object (h'.objects object hobject),
    fun table htable => h'.tables table (h.tables table htable)⟩
  measure := fun _ _ => .of_eq rfl rfl
  drawAsset := fun _ => .of_eq rfl rfl
  tiles := fun _ _ => .of_eq rfl rfl
  tearDown := fun w action s hs => by
    have hcleared := TeardownAction.cleared_of_run hs
    constructor
    · intro object hobject
      exact (hcleared.mem_objects_iff.mp hobject).1
    · intro table htable
      show s.database.tables.get? table = none
      rw [hcleared.get?_tables, htable, ite_self]
  commit := fun _ _ => .of_eq rfl rfl
  createTask := fun _ _ => .of_eq rfl rfl
  updateAsset := fun _ _ _ _ _ => .of_eq rfl rfl
  createAsset := fun _ _ _ _ => .of_eq rfl rfl
  appendTaskLog := fun _ _ _ _ _ _ => .of_eq rfl rfl
  appendVersionLog := fun _ _ _ _ _ => .of_eq rfl rfl

instance : World.PermitsRequests World.Shrinks where
  drawAsset := World.Permits.drawAsset
  store := fun _ _ => .of_eq rfl rfl
  distribution := fun _ _ => .of_eq rfl rfl

namespace Services

variable {s s' : Services} {action : TeardownAction} {actions actions' : List TeardownAction}

/-- Of what some actions name nothing is new. -/
structure AddsNone (s : Services) (actions : List TeardownAction) (s' : Services) : Prop where
  objects : ∀ object ∈ s'.objects.objects, actions.any (·.deletes object) = true →
    object ∈ s.objects.objects
  tables : ∀ table, actions.any (·.drops table) = true → s.database.tables.get? table = none →
    s'.database.tables.get? table = none

/-- Nothing is there of what some actions name. -/
structure HasNone (s : Services) (actions : List TeardownAction) : Prop where
  objects : ∀ object ∈ s.objects.objects, actions.any (·.deletes object) = false
  tables : ∀ table, actions.any (·.drops table) = true → s.database.tables.get? table = none

theorem hasNone_nil (s : Services) : s.HasNone [] where
  objects := fun _ _ => rfl
  tables := fun _ h => by cases h

/-- What was removed stays away as long as nothing is new. -/
theorem HasNone.of_addsNone (h : s.HasNone actions) (hs : s.AddsNone actions' s')
    (hsub : actions ⊆ actions') : s'.HasNone actions where
  objects := fun object hobject => by
    by_contra hany
    rw [Bool.not_eq_false] at hany
    obtain ⟨action, haction, hdeletes⟩ := List.any_eq_true.mp hany
    have hold := hs.objects object hobject
      (List.any_eq_true.mpr ⟨action, hsub haction, hdeletes⟩)
    rw [h.objects object hold] at hany
    cases hany
  tables := fun table hany => by
    obtain ⟨action, haction, hdrops⟩ := List.any_eq_true.mp hany
    exact hs.tables table (List.any_eq_true.mpr ⟨action, hsub haction, hdrops⟩)
      (h.tables table hany)

/-- What an action names is gone once it was taken. -/
theorem HasNone.of_cleared (h : s.HasNone actions) (hs : s.Cleared [action] s') :
    s'.HasNone (actions ++ [action]) where
  objects := fun object hobject => by
    obtain ⟨hold, hnone⟩ := hs.mem_objects_iff.mp hobject
    rw [List.any_append, h.objects object hold, Bool.false_or, List.any_cons, List.any_nil,
      Bool.or_false]
    exact hnone action List.mem_cons_self
  tables := fun table hany => by
    rw [hs.get?_tables]
    split
    · rfl
    · next hno =>
      rw [List.any_append, Bool.or_eq_true] at hany
      exact h.tables table (hany.resolve_right hno)

end Services

namespace Orchestrator

variable {o : Orchestrator} {n : Nat} {actions : List TeardownAction}

/-- Only the surroundings bring in objects and tables. -/
theorem handle_shrinks (o : Orchestrator) {e : Event} (he : ∀ s, e ≠ .surround s) :
    o.world.Shrinks (o.handle e).world := by
  have h := o.handle_touches e
  generalize (o.handle e).world = w' at h ⊢
  cases h with
  | @request c _ _ hr => exact c.flow_within o.world _ w' hr
  | @step _ a _ _ _ hr => exact a.step_within (fun _ _ _ _ _ => .of_eq rfl rfl) o.world _ w' hr
  | surround s => exact absurd rfl (he s)
  | nothing => exact World.Order.refl _

/-! ## Teardown while other work goes on -/

/-- A piece takes some actions. As long as nothing new is brought in, nothing is left of what those
that it has taken name, unless one of them failed. -/
inductive TearsDown (o : Orchestrator) (n : Nat) (actions : List TeardownAction) (quiet : Prop) :
    Prop where
  | underway {taken rest : List TeardownAction} {error? : Option Error}
    (hactions : taken ++ rest = actions) (work : o.workAt n = some (.tearDown rest error?))
    (ending : o.endingAt n = none)
    (hnone : quiet → error? = none → o.world.services.HasNone taken)
  | done (work : o.workAt n = none) (hnone : quiet → o.world.services.HasNone actions)
  | failed {e : Error} (work : o.workAt n = none)
    (ending : o.endingAt n = some (.returned (.error e)))

namespace TearsDown

variable {quiet : Prop}

/-- The next step of the piece takes an action, or none. -/
theorem advance (h : o.TearsDown n actions quiet) : (o.advance n).TearsDown n actions quiet ∧
    ∃ taken ⊆ actions, o.world.services.Cleared taken (o.advance n).world.services ∧
      (o.advance n).world = { o.world with
        services := (o.advance n).world.services
        measurements := (o.advance n).world.measurements } := by
  cases h with
  | @underway taken rest error? hactions work ending hnone =>
    rw [advance_of_unlocked work rfl]
    cases rest with
    | nil =>
      rw [List.append_nil] at hactions
      subst hactions
      cases error? with
      | none =>
        obtain ⟨hworld, hwork, _⟩ := takeStep_self work (Activity.tearDown_step_done o.world)
        rw [hworld]
        refine ⟨.done hwork fun hq => ?_, [], List.nil_subset _, .nil _, rfl⟩
        rw [hworld]
        exact hnone hq rfl
      | some e =>
        obtain ⟨hworld, hwork, hending⟩ :=
          takeStep_self work (Activity.tearDown_step_failed o.world e)
        rw [hworld]
        exact ⟨.failed hwork hending, [], List.nil_subset _, .nil _, rfl⟩
    | cons action rest =>
      have hsplit : (taken ++ [action]) ++ rest = actions := by
        rw [List.append_assoc]
        exact hactions
      cases hr : action.run o.world.services with
      | error e =>
        obtain ⟨hworld, hwork, hending⟩ := takeStep_self work (Activity.tearDown_step_error hr)
        rw [hworld]
        refine ⟨.underway hsplit hwork (hending.trans ending) fun _ hno => ?_, [],
          List.nil_subset _, .nil _, rfl⟩
        -- an error is kept
        cases error? <;> cases hno
      | ok s =>
        obtain ⟨hworld, hwork, hending⟩ := takeStep_self work (Activity.tearDown_step_ok hr)
        have hcleared := TeardownAction.cleared_of_run hr
        rw [hworld]
        refine ⟨.underway hsplit hwork (hending.trans ending) fun hq hno => ?_, [action], ?_,
          hcleared, rfl⟩
        · rw [hworld]
          exact (hnone hq hno).of_cleared hcleared
        · rw [← hsplit]
          intro a ha
          exact List.mem_append_left _ (List.mem_append_right _ ha)
  | done work hnone =>
    obtain ⟨hworld, hwork, _⟩ := advance_of_none work
    rw [hworld]
    refine ⟨.done hwork fun hq => ?_, [], List.nil_subset _, .nil _, rfl⟩
    rw [hworld]
    exact hnone hq
  | failed work ending =>
    obtain ⟨hworld, hwork, hending⟩ := advance_of_none work
    rw [hworld]
    exact ⟨.failed hwork (hending.trans ending), [], List.nil_subset _, .nil _, rfl⟩

/-- Every event leaves the piece at its actions. -/
theorem handle (h : o.TearsDown n actions quiet) (hn : n < o.background.started) {e : Event}
    (hquiet : quiet → ∀ s, e = .surround s → o.world.services.AddsNone actions s.services) :
    (o.handle e).TearsDown n actions quiet := by
  by_cases he : e = .advance n
  · subst he
    exact h.advance.1
  -- anybody else leaves the piece where it is, and only the surroundings bring something in
  have hsame := handle_sameAt he hn
  have hadds : quiet → o.world.services.AddsNone actions (o.handle e).world.services := by
    intro hq
    by_cases hs : ∃ s, e = .surround s
    · obtain ⟨s, rfl⟩ := hs
      exact hquiet hq s rfl
    · have hshrinks := o.handle_shrinks fun s hs' => hs ⟨s, hs'⟩
      exact ⟨fun object h _ => hshrinks.objects object h, fun table _ => hshrinks.tables table⟩
  cases h with
  | underway hactions work ending hnone =>
    refine .underway hactions (hsame.workAt.trans work) (hsame.ending.trans ending) fun hq hno => ?_
    refine (hnone hq hno).of_addsNone (hadds hq) ?_
    rw [← hactions]
    exact List.subset_append_left _ _
  | done work hnone =>
    exact .done (hsame.workAt.trans work) fun hq =>
      (hnone hq).of_addsNone (hadds hq) (List.Subset.refl _)
  | failed work ending => exact .failed (hsame.workAt.trans work) (hsame.ending.trans ending)

theorem after {o : Orchestrator} (h : o.TearsDown n actions quiet)
    (hn : n < o.background.started) (es : List Event)
    (hquiet : quiet → ∀ es₁ s es₂, es = es₁ ++ .surround s :: es₂ →
      (o.after es₁).world.services.AddsNone actions s.services) :
    (o.after es).TearsDown n actions quiet := by
  induction es generalizing o with
  | nil => exact h
  | cons e es ih =>
    refine ih (h.handle hn fun hq s he => ?_)
      (Nat.lt_of_lt_of_le hn (o.started_handle_le e)) fun hq es₁ s es₂ hes => ?_
    · exact hquiet hq [] s es (by rw [he]; rfl)
    · exact hquiet hq (e :: es₁) s es₂ (by rw [hes]; rfl)

end TearsDown

/-! ## Teardown by itself -/

/-- If nothing else goes on and the services are in order, the piece takes all its actions and ends
without an error. -/
theorem tornDown_alone {o : Orchestrator} (hup : o.world.services.IsUp)
    (hwork : o.workAt n = some (.tearDown actions none)) :
    let o' := o.after (List.replicate (actions.length + 1) (.advance n))
    o'.endingAt n = some (.returned (.ok .done)) ∧
      o.world.services.Cleared actions o'.world.services ∧
      o'.world = { o.world with
        services := o'.world.services
        measurements := o'.world.measurements } := by
  have hadvance := advance_of_unlocked hwork rfl
  induction actions generalizing o with
  | nil =>
    obtain ⟨hworld, _, hending⟩ := takeStep_self hwork (Activity.tearDown_step_done o.world)
    rw [← hadvance] at hworld hending
    show (o.advance n).endingAt n = _ ∧ o.world.services.Cleared [] (o.advance n).world.services ∧
      (o.advance n).world = { o.world with
        services := (o.advance n).world.services
        measurements := (o.advance n).world.measurements }
    rw [hworld]
    exact ⟨hending, .nil _, rfl⟩
  | cons action actions ih =>
    obtain ⟨s, hs⟩ := action.exists_run_of_isUp hup
    have hcleared := TeardownAction.cleared_of_run hs
    obtain ⟨hworld, hwork', _⟩ := takeStep_self hwork (Activity.tearDown_step_ok hs)
    rw [← hadvance] at hworld hwork'
    have hup' : (o.advance n).world.services.IsUp := by
      rw [hworld]
      exact hcleared.isUp hup
    obtain ⟨hending, hrest, hsame⟩ := ih hup' hwork' (advance_of_unlocked hwork' rfl)
    rw [List.length_cons, List.replicate_succ, after_cons]
    refine ⟨hending, ?_, ?_⟩
    · rw [hworld] at hrest
      exact hcleared.append hrest
    · rw [hworld] at hsame
      exact hsame

end Orchestrator

end GeoAssets
