import GeoAssets.Proofs.Run.Command

/-!
# What events do

`Orchestrator.Handles` lists what an event may do: a request is obeyed, a report is taken up, a
piece of work takes its step, or nothing changes but lines and surroundings. `Orchestrator.Sound`
is what is true in every state of a run; above all, the pieces of work know the assets that they are
about as these are.
-/

namespace GeoAssets.Orchestrator

variable {o o' : Orchestrator}

/-! ## Pieces of work -/

theorem workAt_start (o : Orchestrator) (name : String) (isWatched : Bool) (a : Activity)
    (world : World) (locks : LockTable LockUser) (n : Nat) :
    workAt ⟨world, locks, (o.background.start name isWatched a).2⟩ n =
      if n = o.background.started then some a else o.workAt n := by
  show ((o.background.pieces.insert o.background.started ⟨name, isWatched, a⟩).get? n).map _ = _
  rw [Directory.get?_insert]
  by_cases hn : o.background.started = n
  · rw [if_pos hn, if_pos hn.symm]
    rfl
  · rw [if_neg hn, if_neg (Ne.symm hn)]
    rfl

theorem workAt_unlock (o : Orchestrator) (a : AssetId) (user : LockUser) (n : Nat) :
    (o.unlock a user).workAt n = o.workAt n := by
  unfold unlock wakeHolder
  split
  · unfold workAt Background.wake
    dsimp only
    split <;> rfl
  · rfl
  · rfl

theorem started_unlock (o : Orchestrator) (a : AssetId) (user : LockUser) :
    (o.unlock a user).background.started = o.background.started := by
  unfold unlock wakeHolder
  split
  · unfold Background.wake
    dsimp only
    split <;> rfl
  · rfl
  · rfl

theorem world_unlock (o : Orchestrator) (a : AssetId) (user : LockUser) :
    (o.unlock a user).world = o.world := by
  unfold unlock wakeHolder
  split <;> rfl

/-- A step of a piece changes the world as its activity says, and the work of no other piece. -/
theorem takeStep_cases {n : Nat} {a : Activity} (ha : o.workAt n = some a) :
    ∃ r, a.step.run o.world = (r, (o.takeStep n a).world) ∧
      (∀ m, (o.takeStep n a).workAt m = if m = n then Next.rest? r else o.workAt m) ∧
      (o.takeStep n a).background.started = o.background.started := by
  have hconclude : ∀ (world : World) (ending : Ending Answer) (m : Nat),
      workAt ⟨world, o.locks, o.background.conclude n ending⟩ m =
        if m = n then none else o.workAt m := by
    intro world ending m
    show ((o.background.pieces.erase n).get? m).map _ = _
    rw [Directory.get?_erase]
    by_cases hm : n = m
    · rw [if_pos hm, if_pos hm.symm]
      rfl
    · rw [if_neg hm, if_neg (Ne.symm hm)]
      rfl
  unfold takeStep
  rcases hr : a.step.run o.world with ⟨e | next, w'⟩
  · exact ⟨.error e, rfl, hconclude w' _, rfl⟩
  · cases next with
    | finished answer => exact ⟨.ok (.finished answer), rfl, hconclude w' _, rfl⟩
    | goOn rest =>
      refine ⟨.ok (.goOn rest), rfl, ?_, rfl⟩
      intro m
      show ((o.background.pieces.modify n _).get? m).map _ = _
      rw [Directory.get?_modify]
      by_cases hm : m = n
      · subst hm
        rw [if_pos rfl, if_pos rfl]
        obtain ⟨piece, hp, _⟩ := Option.map_eq_some_iff.mp ha
        rw [hp]
        rfl
      · rw [if_neg hm, if_neg hm]
        rfl

/-- A piece takes its step, or waits, or is not there. -/
theorem advance_cases (o : Orchestrator) (n : Nat) :
    (∃ a, o.workAt n = some a ∧ (o.advance n).world = (o.takeStep n a).world ∧
      (∀ m, (o.advance n).workAt m = (o.takeStep n a).workAt m) ∧
      (o.advance n).background.started = (o.takeStep n a).background.started) ∨
    ((o.advance n).world = o.world ∧ (∀ m, (o.advance n).workAt m = o.workAt m) ∧
      (o.advance n).background.started = o.background.started) := by
  unfold advance
  cases hp : o.background.pieces.get? n with
  | none =>
    right
    exact ⟨rfl, fun _ => rfl, rfl⟩
  | some piece =>
    have ha : o.workAt n = some piece.rest := by
      unfold workAt
      rw [hp]
      rfl
    dsimp only
    split
    · left
      exact ⟨_, ha, rfl, fun _ => rfl, rfl⟩
    · next x _ =>
      split
      · left
        exact ⟨_, ha, rfl, fun _ => rfl, rfl⟩
      · next user _ =>
        split
        · left
          exact ⟨_, ha, world_unlock _ x user, workAt_unlock _ x user, started_unlock _ x user⟩
        · right
          exact ⟨rfl, fun _ => rfl, rfl⟩

/-- A request changes the world, and its work is started. -/
theorem obey_cases {c : Command} {r : Except Error (Option Work)} {w' : World}
    (hr : c.flow.run o.world = (r, w')) :
    (o.request c.flow).1 = r ∧ (o.obey c).world = w' ∧
      ((∃ work, r = .ok (some work) ∧ (∀ n, (o.obey c).workAt n =
          if n = o.background.started then some work.activity else o.workAt n) ∧
          (o.obey c).background.started = o.background.started + 1) ∨
        (Command.work? r = none ∧ (∀ n, (o.obey c).workAt n = o.workAt n) ∧
          (o.obey c).background.started = o.background.started)) := by
  have hreq : o.request c.flow = (r, { o with world := w' }) := by
    unfold request
    rw [hr]
  unfold obey
  rw [hreq]
  rcases r with e | (_ | work)
  · exact ⟨rfl, rfl, Or.inr ⟨rfl, fun _ => rfl, rfl⟩⟩
  · exact ⟨rfl, rfl, Or.inr ⟨rfl, fun _ => rfl, rfl⟩⟩
  · refine ⟨rfl, rfl, Or.inl ⟨work, rfl, ?_, rfl⟩⟩
    exact workAt_start o work.name true work.activity w' o.locks

/-! ## The world -/

/-- The ways in which an event may change the world. -/
inductive Touches (o : Orchestrator) : Event → World → Prop where
  | request {c : Command} {r : Except Error (Option Work)} {w' : World}
    (h : c.flow.run o.world = (r, w')) : Touches o (.command c) w'
  | step {n : Nat} {a : Activity} {r : Except Error Next} {w' : World} (ha : o.workAt n = some a)
    (h : a.step.run o.world = (r, w')) : Touches o (.advance n) w'
  | surround (s : Surroundings) : Touches o (.surround s) (o.world.surround s)
  | nothing (e : Event) : Touches o e o.world

theorem handle_touches (o : Orchestrator) (e : Event) : o.Touches e (o.handle e).world := by
  cases e with
  | command c =>
    rcases hr : c.flow.run o.world with ⟨r, w'⟩
    have hworld : (o.handle (.command c)).world = w' := (obey_cases hr).2.1
    rw [hworld]
    exact .request hr
  | advance n =>
    rcases advance_cases o n with ⟨a, ha, hworld, _⟩ | ⟨hworld, _⟩
    · obtain ⟨r, hr, _⟩ := takeStep_cases ha
      rw [← hworld] at hr
      exact .step ha hr
    · have hworld' : (o.handle (.advance n)).world = o.world := hworld
      rw [hworld']
      exact .nothing _
  | release a =>
    have hworld : (o.handle (.release a)).world = o.world := world_unlock o a _
    rw [hworld]
    exact .nothing _
  | report task entry => exact .nothing _
  | hold a => exact .nothing _
  | surround s => exact .surround s

/-! ## The cases -/

/-- What an event does to the store and to the work in the background. -/
inductive Handles (o : Orchestrator) : Event → List Store.Operation → Orchestrator → Prop where
  | obeyed {c : Command} {ops : List Store.Operation} {o' : Orchestrator}
    (h : Command.Obeys ops none) (hanswer : Command.work? (o.request c.flow).1 = none)
    (hwork : ∀ n, o'.workAt n = o.workAt n)
    (hstarted : o'.background.started = o.background.started) : Handles o (.command c) ops o'
  | begun {c : Command} {ops : List Store.Operation} {work : Work} {o' : Orchestrator}
    (h : Command.Obeys ops (some work)) (hanswer : (o.request c.flow).1 = .ok (some work))
    (hwork : ∀ n, o'.workAt n =
      if n = o.background.started then some work.activity else o.workAt n)
    (hstarted : o'.background.started = o.background.started + 1) : Handles o (.command c) ops o'
  | reported {task : TaskId} {entry : LogEntry} {o' : Orchestrator}
    (hwork : ∀ n, o'.workAt n =
      if n = o.background.started then some (.receive task entry) else o.workAt n)
    (hstarted : o'.background.started = o.background.started + 1) :
    Handles o (.report task entry) [] o'
  | stepped {n : Nat} {a : Activity} {ops : List Store.Operation} {rest? : Option Activity}
    {o' : Orchestrator} (ha : o.workAt n = some a) (hm : a.Moves o.world ops rest?)
    (hwork : ∀ m, o'.workAt m = if m = n then rest? else o.workAt m)
    (hstarted : o'.background.started = o.background.started) : Handles o (.advance n) ops o'
  /-- Nothing changes but lines and surroundings. -/
  | idled {e : Event} {o' : Orchestrator} (hcommand : ∀ c, e ≠ .command c)
    (hreport : ∀ task entry, e ≠ .report task entry) (hwork : ∀ n, o'.workAt n = o.workAt n)
    (hstarted : o'.background.started = o.background.started) : Handles o e [] o'

/-! ## Sound states -/

/-- What is true in every state of a run. -/
structure Sound (o : Orchestrator) : Prop where
  world : o.world.Sound
  started : ∀ n a, o.workAt n = some a → n < o.background.started
  subject : ∀ n a x, o.workAt n = some a → a.subject? = some x → o.world.ids.HasDrawnAsset x
  suits : ∀ n a, o.workAt n = some a → a.Suits o.world.store

theorem initial_sound (settings : Settings) (now : Timestamp) (ids : IdSupply) :
    (initial settings now ids).Sound where
  world :=
    { wellFormed := Store.wellFormed_empty
      defaultsLead := Store.defaultsLead_empty
      asset := fun _ _ h => by cases h
      task := fun _ _ h => by cases h }
  started := fun _ _ h => by cases h
  subject := fun _ _ _ h => by cases h
  suits := fun _ _ h => by cases h

/-- No piece has the next number yet. -/
theorem Sound.workAt_started (hs : o.Sound) : o.workAt o.background.started = none := by
  cases h : o.workAt o.background.started with
  | none => rfl
  | some a => exact absurd (hs.started _ a h) (Nat.lt_irrefl _)

/-- Where no piece changes, one that is not there stays so. -/
theorem Sound.workAt_of_same (hs : o.Sound) {o' : Orchestrator}
    (hwork : ∀ n, o'.workAt n = o.workAt n) (m : Nat) :
    o'.workAt m = if m = o.background.started then none else o.workAt m := by
  rw [hwork]
  split
  · next hm => rw [hm, hs.workAt_started]
  · rfl

/-- There is nothing else that an event may do. -/
theorem handle_cases (hs : o.Sound) (e : Event) (hd : (o.handle e).world.ids.Distinct) :
    ∃ ops, o.world.Evolves ops (o.handle e).world ∧ o.Handles e ops (o.handle e) := by
  cases e with
  | command c =>
    rcases hr : c.flow.run o.world with ⟨r, w'⟩
    obtain ⟨hanswer, hworld, hwork⟩ := obey_cases hr
    change (o.obey c).world.ids.Distinct at hd
    show ∃ ops, o.world.Evolves ops (o.obey c).world ∧ o.Handles (.command c) ops (o.obey c)
    rw [hworld] at hd ⊢
    obtain ⟨ops, hobeys, he⟩ := Command.flow_does hs.world c r w' hr hd
    refine ⟨ops, he, ?_⟩
    rcases hwork with ⟨work, rfl, hwork, hstarted⟩ | ⟨hnone, hwork, hstarted⟩
    · exact .begun hobeys hanswer hwork hstarted
    · rw [hnone] at hobeys
      rw [← hanswer] at hnone
      exact .obeyed hobeys hnone hwork hstarted
  | report task entry =>
    refine ⟨[], .refl o.world, .reported ?_ rfl⟩
    intro n
    exact workAt_start o _ false (.receive task entry) o.world o.locks n
  | advance n =>
    change (o.advance n).world.ids.Distinct at hd
    show ∃ ops, o.world.Evolves ops (o.advance n).world ∧ o.Handles (.advance n) ops (o.advance n)
    rcases advance_cases o n with ⟨a, ha, hworld, hwork, hstarted⟩ | ⟨hworld, hwork, hstarted⟩
    · obtain ⟨r, hr, hwork', hstarted'⟩ := takeStep_cases ha
      rw [hworld] at hd ⊢
      obtain ⟨ops, hm, he⟩ := Activity.step_moves hs.world (hs.suits n a ha) hr hd
      refine ⟨ops, he, .stepped ha hm ?_ (hstarted.trans hstarted')⟩
      intro m
      rw [hwork, hwork']
    · rw [hworld]
      exact ⟨[], .refl o.world, .idled nofun nofun hwork hstarted⟩
  | hold a =>
    exact ⟨[], .refl o.world, .idled nofun nofun (fun _ => rfl) rfl⟩
  | release a =>
    refine ⟨[], ?_, .idled nofun nofun (workAt_unlock o a _) (started_unlock o a _)⟩
    rw [show (o.handle (.release a)).world = o.world from world_unlock o a _]
    exact .refl o.world
  | surround s =>
    refine ⟨[], ?_, .idled nofun nofun (fun _ => rfl) rfl⟩
    exact (World.Evolves.reject o.world s.rejectedTaskWrites).trans (.of_eq rfl rfl rfl)

end GeoAssets.Orchestrator
