import GeoAssets.Proofs.Background.Failures
import GeoAssets.Proofs.Run.Sound

/-!
# Pieces of background work

What an event does to the pieces of work and to their endings, without regard to what the work is
about: it starts a piece under the next number, or lets one piece take its step, or changes at most
the line. So a piece is left alone by all events but its own steps.
-/

namespace GeoAssets.Orchestrator

variable {o o' : Orchestrator} {n : Nat}

/-! ## Steps -/

/-- How a piece ended, if it has ended. -/
def endingAt (o : Orchestrator) (n : Nat) : Option (Ending Answer) :=
  o.background.endings.get? n

/-- No piece has a number that is still to be given. -/
def Numbered (o : Orchestrator) : Prop :=
  ∀ m, o.background.started ≤ m → o.background.pieces.get? m = none ∧ o.endingAt m = none

theorem unlock_background (o : Orchestrator) (a : AssetId) (user : LockUser) :
    ∃ ready, (o.unlock a user).background = { o.background with ready } := by
  unfold unlock wakeHolder
  split
  · unfold Background.wake
    dsimp only
    split
    · exact ⟨_, rfl⟩
    · exact ⟨_, rfl⟩
  · exact ⟨_, rfl⟩
  · exact ⟨_, rfl⟩

theorem takeStep_background (o : Orchestrator) (n : Nat) (a : Activity) :
    (o.takeStep n a).background =
      match (a.step.run o.world).1 with
      | .ok (.goOn rest) => o.background.setRest n rest
      | .ok (.finished answer) => o.background.conclude n (.returned (.ok answer))
      | .error e => o.background.conclude n (.returned (.error e)) := by
  unfold takeStep
  rcases a.step.run o.world with ⟨e | next, w'⟩
  · rfl
  · cases next <;> rfl

/-- A piece takes its step, up to the lines, or nothing changes but the lines. -/
theorem advance_background (o : Orchestrator) (n : Nat) :
    (∃ a ready, o.workAt n = some a ∧ (o.advance n).world = (o.takeStep n a).world ∧
      (o.advance n).background = { (o.takeStep n a).background with ready }) ∨
    ∃ ready, (o.advance n).world = o.world ∧
      (o.advance n).background = { o.background with ready } := by
  unfold advance
  cases hp : o.background.pieces.get? n with
  | none => exact Or.inr ⟨_, rfl, rfl⟩
  | some piece =>
    have ha : o.workAt n = some piece.rest := by rw [workAt, hp, Option.map_some]
    dsimp only
    split
    · exact Or.inl ⟨_, _, ha, rfl, rfl⟩
    · next x _ =>
      split
      · exact Or.inl ⟨_, _, ha, rfl, rfl⟩
      · next user _ =>
        split
        · obtain ⟨ready, hready⟩ := unlock_background (o.takeStep n piece.rest) x user
          exact Or.inl ⟨_, ready, ha, world_unlock _ x user, hready⟩
        · exact Or.inr ⟨_, rfl, rfl⟩

/-- A step of a piece does nothing to other pieces. -/
theorem takeStep_others (o : Orchestrator) (n : Nat) (a : Activity) :
    (o.takeStep n a).background.started = o.background.started ∧
      (o.takeStep n a).background.outstanding = o.background.outstanding ∧
      ∀ m, m ≠ n → (o.takeStep n a).background.pieces.get? m = o.background.pieces.get? m ∧
        (o.takeStep n a).endingAt m = o.endingAt m := by
  unfold endingAt
  rw [takeStep_background]
  have hconclude : ∀ (ending : Ending Answer) m, m ≠ n →
      (o.background.conclude n ending).pieces.get? m = o.background.pieces.get? m ∧
        (o.background.conclude n ending).endings.get? m = o.background.endings.get? m :=
    fun ending m hm => ⟨Directory.get?_erase_of_ne hm.symm _,
      Directory.get?_insert_of_ne hm.symm _ _⟩
  rcases (a.step.run o.world).1 with e | next
  · exact ⟨rfl, rfl, hconclude _⟩
  · cases next with
    | finished answer => exact ⟨rfl, rfl, hconclude _⟩
    | goOn rest =>
      refine ⟨rfl, rfl, fun m hm => ⟨?_, rfl⟩⟩
      show (o.background.pieces.modify n _).get? m = _
      rw [Directory.get?_modify, if_neg hm]

/-- How a step ends its piece, if it does. -/
def ending? : Except Error Next → Option (Ending Answer)
  | .ok (.goOn _) => none
  | .ok (.finished answer) => some (.returned (.ok answer))
  | .error e => some (.returned (.error e))

/-- What a step leaves of its piece. -/
theorem takeStep_self {a : Activity} {r : Except Error Next} {w : World}
    (ha : o.workAt n = some a) (hr : a.step.run o.world = (r, w)) :
    (o.takeStep n a).world = w ∧ (o.takeStep n a).workAt n = Next.rest? r ∧
      (o.takeStep n a).endingAt n = (ending? r).or (o.endingAt n) := by
  obtain ⟨r', hr', hwork, _⟩ := takeStep_cases ha
  rw [hr] at hr'
  cases hr'
  refine ⟨rfl, (hwork n).trans (if_pos rfl), ?_⟩
  rw [endingAt, takeStep_background, hr]
  rcases r with e | next
  · exact Directory.get?_insert_self _ _ _
  · cases next with
    | finished answer => exact Directory.get?_insert_self _ _ _
    | goOn rest => rfl

/-- A piece that needs no lock takes its step. -/
theorem advance_of_unlocked {a : Activity} (ha : o.workAt n = some a) (hlock : a.lock? = none) :
    o.advance n = o.takeStep n a := by
  obtain ⟨piece, hp, rfl⟩ := Option.map_eq_some_iff.mp ha
  unfold advance
  rw [hp]
  dsimp only
  rw [hlock]

/-- The step of a piece, as far as the piece itself goes. -/
theorem advance_self (o : Orchestrator) (n : Nat) :
    (∃ a r, o.workAt n = some a ∧ a.step.run o.world = (r, (o.advance n).world) ∧
      (o.advance n).workAt n = Next.rest? r ∧
      (o.advance n).endingAt n = (ending? r).or (o.endingAt n)) ∨
    ((o.advance n).world = o.world ∧ (o.advance n).workAt n = o.workAt n ∧
      (o.advance n).endingAt n = o.endingAt n) := by
  rcases advance_background o n with ⟨a, ready, ha, hworld, hbackground⟩ |
    ⟨ready, hworld, hbackground⟩
  · left
    obtain ⟨r, hr, _⟩ := takeStep_cases ha
    obtain ⟨_, hwork, hending⟩ := takeStep_self ha hr
    refine ⟨a, r, ha, by rw [hworld]; exact hr, ?_, ?_⟩
    · rw [workAt, hbackground]
      exact hwork
    · rw [endingAt, hbackground]
      exact hending
  · right
    refine ⟨hworld, ?_, ?_⟩
    · rw [workAt, hbackground]
      rfl
    · rw [endingAt, hbackground]
      rfl

/-- A piece that is not there takes no step. -/
theorem advance_of_none (hn : o.workAt n = none) : (o.advance n).world = o.world ∧
    (o.advance n).workAt n = none ∧ (o.advance n).endingAt n = o.endingAt n := by
  rcases o.advance_self n with ⟨a, _, ha, _⟩ | ⟨hworld, hwork, hending⟩
  · rw [hn] at ha
    cases ha
  · exact ⟨hworld, hwork.trans hn, hending⟩

/-! ## Events -/

/-- An event starts work, or lets a piece take its step, or changes at most the line. -/
theorem handle_background (o : Orchestrator) (e : Event) :
    (∃ name isWatched a, (o.handle e).background = (o.background.start name isWatched a).2) ∨
    (∃ n a ready, e = .advance n ∧ o.workAt n = some a ∧
      (o.handle e).background = { (o.takeStep n a).background with ready }) ∨
    ∃ ready, (o.handle e).background = { o.background with ready } := by
  cases e with
  | command c =>
    show (∃ name isWatched a, (o.obey c).background = _) ∨ _ ∨ ∃ ready, (o.obey c).background = _
    unfold obey request
    rcases c.flow.run o.world with ⟨e | (_ | work), w'⟩
    · exact Or.inr (Or.inr ⟨_, rfl⟩)
    · exact Or.inr (Or.inr ⟨_, rfl⟩)
    · exact Or.inl ⟨_, _, _, rfl⟩
  | report task entry => exact Or.inl ⟨_, _, _, rfl⟩
  | advance n =>
    rcases advance_background o n with ⟨a, ready, ha, _, h⟩ | ⟨ready, _, h⟩
    · exact Or.inr (Or.inl ⟨n, a, ready, rfl, ha, h⟩)
    · exact Or.inr (Or.inr ⟨ready, h⟩)
  | hold a => exact Or.inr (Or.inr ⟨_, rfl⟩)
  | release a => exact Or.inr (Or.inr (o.unlock_background a _))
  | surround s => exact Or.inr (Or.inr ⟨_, rfl⟩)

/-- A request ends no piece. -/
theorem endingAt_command (o : Orchestrator) (c : Command) (n : Nat) :
    (o.handle (.command c)).endingAt n = o.endingAt n := by
  show (o.obey c).background.endings.get? n = o.background.endings.get? n
  unfold obey request
  rcases c.flow.run o.world with ⟨e | (_ | work), w'⟩
  · rfl
  · rfl
  · rfl

/-- A piece is as it was before, and so is its ending. -/
structure SameAt (o : Orchestrator) (n : Nat) (o' : Orchestrator) : Prop where
  piece : o'.background.pieces.get? n = o.background.pieces.get? n
  ending : o'.endingAt n = o.endingAt n

theorem SameAt.workAt (h : o.SameAt n o') : o'.workAt n = o.workAt n := by
  rw [Orchestrator.workAt, h.piece, Orchestrator.workAt]

/-- An event leaves a piece alone, unless it starts the piece or is its step. -/
theorem handle_cases_at (o : Orchestrator) (e : Event) (n : Nat) :
    o.SameAt n (o.handle e) ∨
      (n = o.background.started ∧ n < (o.handle e).background.started) ∨
      (e = .advance n ∧ ∃ a, o.workAt n = some a) := by
  rcases o.handle_background e with ⟨_, _, _, h⟩ | ⟨m, a, ready, rfl, ha, h⟩ | ⟨ready, h⟩
  · by_cases hn : n = o.background.started
    · refine Or.inr (Or.inl ⟨hn, ?_⟩)
      rw [h, hn]
      exact Nat.lt_succ_self _
    · left
      constructor
      · rw [h]
        exact Directory.get?_insert_of_ne (Ne.symm hn) _ _
      · rw [endingAt, h]
        rfl
  · by_cases hn : n = m
    · exact Or.inr (Or.inr ⟨by rw [hn], a, by rw [hn]; exact ha⟩)
    · left
      obtain ⟨hpiece, hending⟩ := (o.takeStep_others m a).2.2 n hn
      constructor
      · rw [h]
        exact hpiece
      · rw [endingAt, h]
        exact hending
  · left
    constructor
    · rw [h]
    · rw [endingAt, h]
      rfl

theorem started_handle_le (o : Orchestrator) (e : Event) :
    o.background.started ≤ (o.handle e).background.started := by
  rcases o.handle_background e with ⟨_, _, _, h⟩ | ⟨n, a, ready, rfl, _, h⟩ | ⟨ready, h⟩
  · rw [h]
    exact Nat.le_succ _
  · rw [h]
    exact Nat.le_of_eq (o.takeStep_others n a).1.symm
  · exact Nat.le_of_eq (by rw [h])

/-- An event that is not the step of a piece leaves the piece alone. -/
theorem handle_sameAt {e : Event} (he : e ≠ .advance n) (hn : n < o.background.started) :
    o.SameAt n (o.handle e) := by
  rcases o.handle_cases_at e n with hsame | ⟨hstarted, _⟩ | ⟨rfl, _⟩
  · exact hsame
  · omega
  · exact absurd rfl he

/-- The numbers of pieces are given one after the other. -/
theorem Numbered.handle (ho : o.Numbered) (e : Event) : (o.handle e).Numbered := by
  intro m hm
  have hle := o.started_handle_le e
  obtain ⟨hpiece, hending⟩ := ho m (by omega)
  rcases o.handle_cases_at e m with hsame | ⟨_, hlt⟩ | ⟨_, a, ha⟩
  · exact ⟨hsame.piece.trans hpiece, hsame.ending.trans hending⟩
  · omega
  · -- a piece that is not there takes no step
    rw [workAt, hpiece] at ha
    cases ha

theorem numbered_after {o : Orchestrator} (ho : o.Numbered) (es : List Event) :
    (o.after es).Numbered := by
  induction es generalizing o with
  | nil => exact ho
  | cons e es ih => exact ih (ho.handle e)

/-! ## Failures -/

theorem proceeds_takeStep (o : Orchestrator) (n : Nat) (a : Activity) :
    o.background.Proceeds (o.takeStep n a).background := by
  rw [takeStep_background]
  split
  · exact Background.proceeds_setRest ..
  · exact Background.proceeds_conclude ..
  · exact Background.proceeds_conclude ..

/-- No event takes failures. -/
theorem proceeds_handle (o : Orchestrator) (e : Event) :
    o.background.Proceeds (o.handle e).background := by
  rcases o.handle_background e with ⟨name, isWatched, a, h⟩ | ⟨n, a, ready, _, _, h⟩ | ⟨ready, h⟩
  · rw [h]
    exact Background.proceeds_start ..
  · rw [h]
    exact (o.proceeds_takeStep n a).trans (Background.proceeds_lineUp _ ready)
  · rw [h]
    exact Background.proceeds_lineUp _ ready

theorem proceeds_after (o : Orchestrator) (es : List Event) :
    o.background.Proceeds (o.after es).background := by
  induction es generalizing o with
  | nil => exact .refl _
  | cons e es ih => exact (o.proceeds_handle e).trans (ih _)

/-- The log of a run holds the last of all failures that were recorded in it. -/
theorem exists_keepsLast (settings : Settings) (now : Timestamp) (ids : IdSupply)
    (es : List Event) : ∃ acts : List (Background.Act Activity Answer), .takeFailures ∉ acts ∧
      ((initial settings now ids).after es).background = ({} : Background _ _).after acts ∧
      ((initial settings now ids).after es).background.failures.KeepsLast
        (Background.Happening.recorded (({} : Background _ _).history acts)) := by
  obtain ⟨acts, hacts, heq⟩ := (initial settings now ids).proceeds_after es
  refine ⟨acts, hacts, heq, ?_⟩
  rw [heq]
  exact Background.keepsLast_failures acts

end GeoAssets.Orchestrator
