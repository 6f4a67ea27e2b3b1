import GeoAssets.Proofs.Run.Latest
import GeoAssets.Proofs.Run.Pieces

/-!
# What is refused leaves no trace

A request that is refused changes nothing but ids and counters. A report is taken up as a piece of
work, whose steps may come in between those of other work; if the report is refused in the end, none
of its steps changed anything but its own piece.
-/

namespace GeoAssets

/-! ## Steps of reports -/

namespace Activity

variable {w w' : World} {a : Activity} {r : Except Error Next}

/-- Nothing is left but to register a tile cache, after the answer is known. -/
def finishes : Activity → Bool
  | .register _ (.answer _) | .inspect _ (.answer _) | .settle _ _ (.answer _) => true
  | _ => false

theorem receive_looks (task : TaskId) (entry : LogEntry) :
    (receive task entry).step.Within World.Untouched :=
  .elseGive (.bind (.check _) fun _ => .bind (.measure fun _ => ⟨rfl, rfl, rfl⟩) fun _ =>
    .bind (.bind (.read _) fun _ => .check _) fun _ => .pure _) _

/-- A report is refused, or its task was found. -/
theorem receive_cases {task : TaskId} {entry : LogEntry}
    (h : (receive task entry).step.run w = (r, w')) :
    (∃ e, r = .error e) ∨ ∃ asset, r = .ok (.goOn (.record asset task entry)) := by
  rw [step_run_of_unknown rfl] at h
  have hgives : (receiveReport task entry).Gives
      fun next => ∃ asset, next = .goOn (.record asset task entry) :=
    .bind fun _ => .bind fun _ => .bind fun t => .pure ⟨t.asset, rfl⟩
  cases r with
  | error e => exact Or.inl ⟨e, rfl⟩
  | ok next =>
    obtain ⟨asset, rfl⟩ := hgives w next w' h
    exact Or.inr ⟨asset, rfl⟩

/-- A report that was recorded is answered, at once or after a tile cache was registered. -/
theorem record_cases {asset : AssetId} {task : TaskId} {entry : LogEntry}
    (h : (record asset task entry).step.run w = (r, w')) :
    ((∃ e, r = .error e) ∧ w' = w) ∨ (∃ answer, r = .ok (.finished answer)) ∨
      ∃ rest, r = .ok (.goOn rest) ∧ rest.finishes = true := by
  rw [step_run_of_unknown rfl] at h
  change (recordReport task entry).run w = (r, w') at h
  unfold recordReport at h
  rcases Flow.run_takeFromStore_bind_cases h with ⟨t, s, _, h⟩ | ⟨e, _, rfl, rfl⟩
  · right
    rw [Flow.run_ofWorld_bind] at h
    cases h
    unfold Next.afterReport
    split
    · exact Or.inr ⟨_, rfl, rfl⟩
    · exact Or.inl ⟨_, rfl⟩
  · exact Or.inl ⟨⟨e, rfl⟩, rfl⟩

/-- Once the answer is known, no step fails. -/
theorem finishes_step (ha : a.finishes = true) (h : a.step.run w = (r, w')) :
    (∃ answer, r = .ok (.finished answer)) ∨
      ∃ rest, r = .ok (.goOn rest) ∧ rest.finishes = true := by
  have hknown : ∃ answer, a.knownAnswer? = some answer ∧ a.proceed.Gives fun next =>
      next = .finished answer ∨ ∃ rest, next = .goOn rest ∧ rest.finishes = true := by
    unfold finishes at ha
    split at ha
    · refine ⟨_, rfl, .bind fun r => ?_⟩
      cases r with
      | ok cache => exact .pure (Or.inr ⟨_, rfl, rfl⟩)
      | error e => exact .bind fun _ => .bind fun _ => .pure (Or.inl rfl)
    · exact ⟨_, rfl, .bind fun _ => .bind fun _ => .pure (Or.inr ⟨_, rfl, rfl⟩)⟩
    · exact ⟨_, rfl, .map fun _ => Or.inl rfl⟩
    · cases ha
  obtain ⟨answer, hanswer, hgives⟩ := hknown
  unfold step Flow.elseGive at h
  rw [Flow.run_ofRun, hanswer] at h
  rcases hp : a.proceed.run w with ⟨e | next, w₁⟩
  · rw [hp] at h
    cases h
    exact Or.inl ⟨answer, rfl⟩
  · rw [hp] at h
    cases h
    rcases hgives w next _ hp with rfl | ⟨rest, rfl, hrest⟩
    · exact Or.inl ⟨answer, rfl⟩
    · exact Or.inr ⟨rest, rfl, hrest⟩

end Activity

namespace Orchestrator

variable {o o' : Orchestrator} {n : Nat}

/-! ## What a step may leave unchanged -/

/-- Nothing has changed but one piece of work, and ids, counters and lines. -/
structure UnchangedBut (o : Orchestrator) (n : Nat) (o' : Orchestrator) : Prop where
  world : o.world.Untouched o'.world
  outstanding : o'.background.outstanding = o.background.outstanding
  pieces : ∀ m, m ≠ n → o'.background.pieces.get? m = o.background.pieces.get? m

theorem UnchangedBut.trans {o'' : Orchestrator} (h : o.UnchangedBut n o')
    (h' : o'.UnchangedBut n o'') : o.UnchangedBut n o'' where
  world := World.Order.trans h.world h'.world
  outstanding := h'.outstanding.trans h.outstanding
  pieces := fun m hm => (h'.pieces m hm).trans (h.pieces m hm)

/-- A piece that does not touch the world changes nothing but itself. -/
theorem advance_unchanged (h : o.world.Untouched (o.advance n).world) :
    o.UnchangedBut n (o.advance n) := by
  refine ⟨h, ?_, ?_⟩
  · rcases advance_background o n with ⟨a, ready, _, _, hb⟩ | ⟨ready, _, hb⟩
    · rw [hb]
      exact (o.takeStep_others n a).2.1
    · rw [hb]
  · intro m hm
    rcases advance_background o n with ⟨a, ready, _, _, hb⟩ | ⟨ready, _, hb⟩
    · rw [hb]
      exact ((o.takeStep_others n a).2.2 m hm).1
    · rw [hb]

/-! ## Reports on their way -/

/-- A report is neither recorded nor refused yet. -/
structure Unrecorded (o : Orchestrator) (n : Nat) (task : TaskId) (entry : LogEntry) : Prop where
  ending : o.endingAt n = none
  work : o.workAt n = some (.receive task entry) ∨
    ∃ asset, o.workAt n = some (.record asset task entry)

/-- A report was refused. -/
structure Refused (o : Orchestrator) (n : Nat) : Prop where
  ending : ∃ e, o.endingAt n = some (.returned (.error e))
  work : o.workAt n = none

/-- A report was recorded; it is going to be answered, or was answered. -/
inductive Accepted (o : Orchestrator) (n : Nat) : Prop where
  | underway {a : Activity} (ending : o.endingAt n = none) (work : o.workAt n = some a)
    (h : a.finishes = true)
  | answered {answer : Answer} (ending : o.endingAt n = some (.returned (.ok answer)))
    (work : o.workAt n = none)

variable {task : TaskId} {entry : LogEntry} {e : Event}

/-- A report that was recorded is not refused any more. -/
theorem Accepted.handle (h : o.Accepted n) (hn : n < o.background.started) :
    (o.handle e).Accepted n := by
  by_cases he : e = .advance n
  swap
  · have hsame := handle_sameAt he hn
    cases h with
    | underway ending work hfinishes =>
      exact .underway (hsame.ending.trans ending) (hsame.workAt.trans work) hfinishes
    | answered ending work =>
      exact .answered (hsame.ending.trans ending) (hsame.workAt.trans work)
  subst he
  show (o.advance n).Accepted n
  rcases o.advance_self n with ⟨b, r, hb, hr, hwork, hending⟩ | ⟨_, hwork, hending⟩
  · cases h with
    | answered _ work =>
      rw [work] at hb
      cases hb
    | underway ending work hfinishes =>
      rw [work] at hb
      cases hb
      rcases Activity.finishes_step hfinishes hr with ⟨answer, rfl⟩ | ⟨rest, rfl, hrest⟩
      · exact .answered hending hwork
      · exact .underway (hending.trans ending) hwork hrest
  · cases h with
    | underway ending work hfinishes =>
      exact .underway (hending.trans ending) (hwork.trans work) hfinishes
    | answered ending work => exact .answered (hending.trans ending) (hwork.trans work)

/-- As long as a report is not recorded, its steps change nothing but its own piece. -/
theorem Unrecorded.handle (h : o.Unrecorded n task entry) (hn : n < o.background.started) :
    (o.handle e).Accepted n ∨
      ((o.handle e).Unrecorded n task entry ∨ (o.handle e).Refused n) ∧
        (e = .advance n → o.UnchangedBut n (o.handle e)) := by
  by_cases he : e = .advance n
  swap
  · have hsame := handle_sameAt he hn
    refine Or.inr ⟨Or.inl ⟨hsame.ending.trans h.ending, ?_⟩, fun h => absurd h he⟩
    rw [hsame.workAt]
    exact h.work
  subst he
  show (o.advance n).Accepted n ∨ ((o.advance n).Unrecorded n task entry ∨
    (o.advance n).Refused n) ∧ (_ → o.UnchangedBut n (o.advance n))
  rcases o.advance_self n with ⟨a, r, ha, hr, hwork, hending⟩ | ⟨hworld, hwork, hending⟩
  swap
  · -- the report waits for the lock of its asset
    refine Or.inr ⟨Or.inl ⟨hending.trans h.ending, ?_⟩, fun _ => advance_unchanged ?_⟩
    · rw [hwork]
      exact h.work
    · rw [hworld]
      exact World.Order.refl _
  rcases h.work with work | ⟨asset, work⟩
  · rw [work] at ha
    cases ha
    have huntouched := Activity.receive_looks task entry o.world r _ hr
    refine Or.inr ⟨?_, fun _ => advance_unchanged huntouched⟩
    rcases Activity.receive_cases hr with ⟨e, rfl⟩ | ⟨asset, rfl⟩
    · exact Or.inr ⟨⟨e, hending⟩, hwork⟩
    · exact Or.inl ⟨hending.trans h.ending, Or.inr ⟨asset, hwork⟩⟩
  · rw [work] at ha
    cases ha
    rcases Activity.record_cases hr with ⟨⟨e, rfl⟩, hworld⟩ | ⟨answer, rfl⟩ | ⟨rest, rfl, hrest⟩
    · refine Or.inr ⟨Or.inr ⟨⟨e, hending⟩, hwork⟩, fun _ => advance_unchanged ?_⟩
      rw [hworld]
      exact World.Order.refl _
    · exact Or.inl (.answered hending hwork)
    · exact Or.inl (.underway (hending.trans h.ending) hwork hrest)

theorem Refused.handle (h : o.Refused n) (hn : n < o.background.started) :
    (o.handle e).Refused n ∧ (e = .advance n → o.UnchangedBut n (o.handle e)) := by
  obtain ⟨⟨cause, hcause⟩, hnone⟩ := h
  by_cases he : e = .advance n
  · subst he
    obtain ⟨hworld, hwork, hending⟩ := advance_of_none hnone
    refine ⟨⟨⟨cause, hending.trans hcause⟩, hwork⟩, fun _ => advance_unchanged ?_⟩
    rw [hworld]
    exact World.Order.refl _
  · have hsame := handle_sameAt he hn
    exact ⟨⟨⟨cause, hsame.ending.trans hcause⟩, hsame.workAt.trans hnone⟩, fun h => absurd h he⟩

/-! ## Runs -/

theorem Accepted.after {o : Orchestrator} (h : o.Accepted n) (hn : n < o.background.started)
    (es : List Event) : (o.after es).Accepted n := by
  induction es generalizing o with
  | nil => exact h
  | cons e es ih => exact ih (h.handle hn) (Nat.lt_of_lt_of_le hn (o.started_handle_le e))

/-- A report that is refused at the end of a run was not recorded before, and none of its steps
changed anything but its own piece. -/
theorem unchanged_of_refused {o : Orchestrator} {es : List Event} (hn : n < o.background.started)
    (h : o.Unrecorded n task entry ∨ o.Refused n) {cause : Error}
    (hend : (o.after es).endingAt n = some (.returned (.error cause))) :
    (o.after es).Refused n ∧ ∀ es₁ es₂, es = es₁ ++ .advance n :: es₂ →
      (o.after es₁).UnchangedBut n (o.after (es₁ ++ [.advance n])) := by
  induction es generalizing o with
  | nil =>
    refine ⟨?_, fun es₁ es₂ hes => ?_⟩
    · rcases h with h | h
      · have hnone := h.ending
        rw [after_nil] at hend
        rw [hnone] at hend
        cases hend
      · exact h
    · cases es₁ <;> cases hes
  | cons e es ih =>
    rw [after_cons] at hend ⊢
    have hn' := Nat.lt_of_lt_of_le hn (o.started_handle_le e)
    have hstep : ((o.handle e).Unrecorded n task entry ∨ (o.handle e).Refused n) ∧
        (e = .advance n → o.UnchangedBut n (o.handle e)) := by
      rcases h with h | h
      · rcases h.handle (e := e) hn with hacc | hstep
        · -- it would have been answered
          rcases hacc.after hn' es with ⟨hnone, _, _⟩ | ⟨hok, _⟩
          · rw [hnone] at hend
            cases hend
          · rw [hok] at hend
            cases hend
        · exact hstep
      · obtain ⟨hrefused, hunchanged⟩ := h.handle (e := e) hn
        exact ⟨Or.inr hrefused, hunchanged⟩
    obtain ⟨hrefused, hrest⟩ := ih hn' hstep.1 hend
    refine ⟨hrefused, fun es₁ es₂ hes => ?_⟩
    cases es₁ with
    | nil =>
      rw [List.nil_append, List.cons.injEq] at hes
      obtain ⟨rfl, rfl⟩ := hes
      exact hstep.2 rfl
    | cons e' es₁ =>
      rw [List.cons_append, List.cons.injEq] at hes
      obtain ⟨rfl, rfl⟩ := hes
      exact hrest es₁ es₂ rfl

/-- A report that was just taken up. -/
theorem Numbered.report (ho : o.Numbered) (task : TaskId) (entry : LogEntry) :
    (o.handle (.report task entry)).Unrecorded o.background.started task entry ∧
      o.UnchangedBut o.background.started (o.handle (.report task entry)) := by
  refine ⟨⟨?_, Or.inl ?_⟩, World.Order.refl _, rfl, fun m hm => ?_⟩
  · exact (ho _ (Nat.le_refl _)).2
  · exact (workAt_start o _ false _ o.world o.locks _).trans (if_pos rfl)
  · exact Directory.get?_insert_of_ne hm.symm _ _

/-- A report was made, and a number of its steps were taken while nothing else went on. -/
def reportedAlone (o : Orchestrator) (task : TaskId) (entry : LogEntry) (steps : Nat) :
    Orchestrator :=
  o.after (.report task entry :: List.replicate steps (.advance o.background.started))

/-- Whatever is refused in a state leaves no trace but ids, counters and lines. -/
structure RefusesCleanly (o : Orchestrator) : Prop where
  /-- A request that is refused. -/
  request : ∀ c cause, (o.request c.flow).1 = .error cause →
    o.world.Untouched (o.handle (.command c)).world ∧
      (o.handle (.command c)).locks = o.locks ∧
      (o.handle (.command c)).background = o.background
  /-- A report that is refused in the end, whatever goes on in between. -/
  report : ∀ task entry es cause,
    (o.after (.report task entry :: es)).endingAt o.background.started =
      some (.returned (.error cause)) →
    o.UnchangedBut o.background.started (o.handle (.report task entry)) ∧
      ∀ es₁ es₂, es = es₁ ++ .advance o.background.started :: es₂ →
        (o.after (.report task entry :: es₁)).UnchangedBut o.background.started
          (o.after (.report task entry :: (es₁ ++ [.advance o.background.started])))
  /-- A report that is refused, from the call to the answer, if nothing else goes on. -/
  alone : ∀ task entry steps cause,
    (o.reportedAlone task entry steps).endingAt o.background.started =
      some (.returned (.error cause)) →
    o.world.Untouched (o.reportedAlone task entry steps).world ∧
      (o.reportedAlone task entry steps).background.outstanding = o.background.outstanding ∧
      ∀ m, (o.reportedAlone task entry steps).background.pieces.get? m =
        o.background.pieces.get? m

/-- What is refused leaves no trace, in every state of every run. -/
theorem initial_refusesCleanly (settings : Settings) (now : Timestamp) (ids : IdSupply)
    (es : List Event) : ((initial settings now ids).after es).RefusesCleanly := by
  have ho : ((initial settings now ids).after es).Numbered :=
    numbered_after (fun _ _ => ⟨rfl, rfl⟩) es
  generalize (initial settings now ids).after es = o at ho
  constructor
  case request =>
    intro c cause hcause
    rcases hr : c.flow.run o.world with ⟨r, w'⟩
    have hreq : o.request c.flow = (r, { o with world := w' }) := by rw [Orchestrator.request, hr]
    rw [hreq] at hcause
    have hr' : r = .error cause := hcause
    have hobey : o.handle (.command c) = { o with world := w' } := by
      show o.obey c = _
      rw [obey, hreq, hr']
    rw [hobey]
    exact ⟨(c.flow_atomic o.world r w' hr).refused cause hr', rfl, rfl⟩
  case report =>
    intro task entry es cause hend
    obtain ⟨hreport, hunchanged⟩ := ho.report task entry
    exact ⟨hunchanged, (unchanged_of_refused (Nat.lt_succ_self _) (Or.inl hreport) hend).2⟩
  case alone =>
    intro task entry steps cause hend
    obtain ⟨hreport, hunchanged⟩ := ho.report task entry
    obtain ⟨hrefused, hsteps⟩ :=
      unchanged_of_refused (Nat.lt_succ_self _) (Or.inl hreport) hend
    have hprefix : ∀ j ≤ steps,
        o.UnchangedBut o.background.started (o.reportedAlone task entry j) := by
      intro j hj
      induction j with
      | zero => exact hunchanged
      | succ j ih =>
        rw [reportedAlone, List.replicate_succ']
        refine (ih (by omega)).trans (hsteps _ (List.replicate (steps - j - 1)
          (.advance o.background.started)) ?_)
        rw [← List.replicate_succ, List.replicate_append_replicate]
        congr 1
        omega
    obtain ⟨hworld, houtstanding, hpieces⟩ := hprefix steps (Nat.le_refl steps)
    refine ⟨hworld, houtstanding, fun m => ?_⟩
    by_cases hm : m = o.background.started
    · -- the piece was not there before the call, and is gone after the answer
      rw [hm, (ho _ (Nat.le_refl _)).1]
      exact Option.map_eq_none_iff.mp hrefused.work
    · exact hpieces m hm

/-! ## A state -/

namespace Sample

/-- Two versions, the second of which is the latest, and the first job of each. -/
def twoVersions : Orchestrator :=
  start.after (datasetFiled ++ [.command createTable, .command createLatest, .advance 0,
    .advance 1])

/-- Requests for what exists, for what does not exist and for what is not allowed. -/
def unacceptable : List Command :=
  [createLatest,
    .createDefaultAsset ⟨"d", "v2"⟩ "table"
      (.object [("source_uri", .array [.string "s3://b/b.csv"])]),
    .createDataset ⟨"d", false, none, .null, [], ⟨0, 0⟩⟩,
    .setLatest ⟨"d", "v3"⟩,
    .deleteVersion ⟨"d", "v2"⟩,
    .deleteDataset "d",
    .deleteAsset (ids.asset 0),
    .resubmissionCores (ids.task 7) 2]

/-- An answer is an error. -/
def isError {α : Type} : Except Error α → Bool
  | .ok _ => false
  | .error _ => true

/-- A report of a task that does not exist. -/
def unknownReported : Orchestrator :=
  twoVersions.reportedAlone (ids.task 7) (.note ⟨0, 0⟩ .success "reported") 1

end Sample

set_option maxRecDepth 100000 in
theorem twoVersions_refusesCleanly : ∃ o, o = Sample.twoVersions ∧
    Sample.tags o = [("v1", false), ("v2", true)] ∧
      (Sample.unacceptable.map fun c => Sample.isError (o.request c.flow).1) =
        List.replicate 8 true ∧
      (Sample.unknownReported.endingAt 2).map (Sample.isError <| ·.result "") = some true ∧
      o.RefusesCleanly := by
  refine ⟨_, rfl, ?_, ?_, ?_, initial_refusesCleanly _ _ _ _⟩
  · decide +kernel
  · decide +kernel
  · decide +kernel

end Orchestrator

end GeoAssets
