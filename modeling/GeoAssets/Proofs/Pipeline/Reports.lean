import GeoAssets.Proofs.Pipeline.Law

/-!
# Reports on their way

A report is taken up as a piece of work, which records it in the log of its task when it gets so
far. So a report of a task is not made yet, or under way, or recorded (`Orchestrator.Reporting`); if
a task is reported once, in the end it says what was reported.
-/

namespace GeoAssets

/-! ## Reports -/

/-- The report that a piece of work is about to record. -/
def Activity.report? : Activity → Option (TaskId × LogEntry)
  | .receive id e | .record _ id e => some (id, e)
  | _ => none

def Event.report? : Event → Option (TaskId × LogEntry)
  | .report id e => some (id, e)
  | _ => none

/-- What is reported of a task in a run. -/
def reportsOf (k : TaskId) (es : List Event) : List LogEntry :=
  es.filterMap fun e => e.report?.bind fun r => if r.1 = k then some r.2 else none

theorem reportsOf_cons (k : TaskId) (e : Event) (es : List Event) :
    reportsOf k (e :: es) = reportsOf k [e] ++ reportsOf k es := by
  rw [← List.singleton_append, reportsOf, List.filterMap_append]
  rfl

theorem reportsOf_append (k : TaskId) (es es' : List Event) :
    reportsOf k (es ++ es') = reportsOf k es ++ reportsOf k es' :=
  List.filterMap_append

theorem reportsOf_of_ne {k : TaskId} {e : Event} (h : ∀ entry, e ≠ .report k entry) :
    reportsOf k [e] = [] := by
  cases e with
  | report id entry =>
    have hid : id ≠ k := by
      rintro rfl
      exact h entry rfl
    simp [reportsOf, Event.report?, hid]
  | _ => rfl

theorem reportsOf_self (k : TaskId) (entry : LogEntry) :
    reportsOf k [.report k entry] = [entry] := by
  simp [reportsOf, Event.report?]

/-- A task says what was reported of it last. -/
theorem Task.progress_report {k : TaskId} {e : LogEntry} (hfinal : e.progress.isTerminal = true)
    {t : Task} (ht : t.id = k) : (t.report k e).progress = e.progress := by
  rw [Task.report, ht, Store.only_self]
  exact (ChangeLog.progress_append_single t.log e).trans (if_pos hfinal)

/-- The work of a request is no report. -/
theorem Work.report?_of_obeys {ops : List Store.Operation} {work : Work}
    (h : Command.Obeys ops (some work)) : work.activity.report? = none := by
  rcases h.work with ⟨actions, hact⟩ | ⟨_, a, g, _, _, _, _, rfl⟩
  · rw [hact]
    rfl
  · have hact : (Work.pipeline a g).activity = Activity.ofGraph a g .pipeline := rfl
    rw [hact, Activity.ofGraph]
    split <;> rfl

/-! ## Steps -/

namespace Activity

variable {w : World} {a rest : Activity} {ops : List Store.Operation} {rest? : Option Activity}

/-- A step goes on with the same report, or with none. -/
theorem Moves.report? (hm : a.Moves w ops (some rest)) {r : TaskId × LogEntry}
    (hr : rest.report? = some r) : a.report? = some r := by
  generalize h : some rest = rest? at hm
  cases hm with
  | received =>
    cases h
    exact hr
  | submitted | refused | counted | expected | inspected | registered =>
    cases h
    cases hr
  | evaluated _ hrest | settled _ hrest | recorded _ _ hrest =>
    obtain ⟨_, _, rfl⟩ := hrest rest h.symm
    cases hr
  | tornDown hrest =>
    obtain ⟨_, _, rfl⟩ := hrest rest h.symm
    cases hr
  | uncounted | abandoned | vanished | rejected | lost | unregistered => cases h

/-- A step takes a report up, or records it. -/
theorem Moves.report_cases (hw : w.store.WellFormed) (hm : a.Moves w ops rest?) {k : TaskId}
    {e : LogEntry} (hk : a.report? = some (k, e)) (hfinal : e.progress.isTerminal = true) {t : Task}
    (ht : w.store.tasks.get? k = some t) : (ops = [] ∧ ∃ x, rest? = some (.record x k e)) ∨
      (Registers rest? ∧ ∀ x ts, ops.foldl (fun ts (op : Store.Operation) => op.onTasks x ts) ts =
        ts.map (Task.report k e)) := by
  cases hm with
  | received =>
    cases hk
    exact Or.inl ⟨rfl, _, rfl⟩
  | recorded hlog hdec hrest =>
    cases hk
    refine Or.inr ⟨hrest, fun x ts => ?_⟩
    rw [List.foldl_cons, hdec.onTasks ((Store.Performs.appendTaskLog hlog).wellFormed hw)]
    rfl
  | rejected h =>
    cases hk
    rcases h with h | h
    · rw [hfinal] at h
      cases h
    · rw [ht] at h
      cases h
  | lost h =>
    cases hk
    rw [ht] at h
    cases h
  | vanished hcopy =>
    cases a <;> cases hk <;> cases hcopy
  | submitted | refused | counted | uncounted | abandoned | expected | evaluated | inspected
  | settled | registered | unregistered | tornDown => cases hk

/-- A report of another task leaves the task alone. -/
theorem mem_map_report_iff {k id : TaskId} (hid : id ≠ k) (e : LogEntry) {t : Task}
    (ht : t.id = k) (ts : List Task) : t ∈ ts.map (Task.report id e) ↔ t ∈ ts := by
  have hother : ∀ u : Task, u.id = k → u.report id e = u := by
    intro u hu
    refine Store.only_of_ne ?_ _ u
    rw [hu]
    exact hid.symm
  rw [List.mem_map]
  constructor
  · rintro ⟨u, hu, rfl⟩
    rw [(Task.report_becomes id e u).id] at ht
    rw [hother u ht]
    exact hu
  · exact fun h => ⟨t, h, hother t ht⟩

/-- A step that records nothing about a task leaves it alone; it may record a new task. -/
theorem Moves.tasks_of_other (hw : w.store.WellFormed) (hm : a.Moves w ops rest?) {k : TaskId}
    (hk : ∀ e, a.report? ≠ some (k, e)) (x : AssetId) (ts : List Task) :
    (∀ t : Task, t.id = k →
        (t ∈ ops.foldl (fun ts (op : Store.Operation) => op.onTasks x ts) ts ↔ t ∈ ts)) ∨
      ∃ u : Task, ops.foldl (fun ts (op : Store.Operation) => op.onTasks x ts) ts = ts ++ [u] ∧
        u.progress = .pending := by
  cases hm with
  | @submitted c job _ _ _ id =>
    rw [List.foldl_cons, Store.Operation.onTasks]
    split
    · right
      exact ⟨_, rfl, Submission.newTask_progress _ _ _ _⟩
    · exact Or.inl fun _ _ => Iff.rfl
  | abandoned h | settled h =>
    rw [h.onTasks hw]
    exact Or.inl fun _ _ => Iff.rfl
  | evaluated h =>
    rw [h.onTasks hw]
    exact Or.inl fun _ _ => Iff.rfl
  | expected | inspected =>
    rw [List.foldl_cons, Store.Operation.onTasks_of_nothing rfl rfl]
    exact Or.inl fun _ _ => Iff.rfl
  | @recorded _ id e t s _ _ ht h =>
    have hid : id ≠ k := by
      rintro rfl
      exact hk e rfl
    rw [List.foldl_cons, h.onTasks ((Store.Performs.appendTaskLog ht).wellFormed hw)]
    exact Or.inl fun u hu => mem_map_report_iff hid e hu ts
  | registered =>
    rw [List.foldl_cons, Store.Operation.onTasks_of_isRequest rfl]
    exact Or.inl fun _ _ => Iff.rfl
  | unregistered h =>
    rcases h with rfl | ⟨e, rfl⟩
    · exact Or.inl fun _ _ => Iff.rfl
    · rw [List.foldl_cons, Store.Operation.onTasks_of_nothing rfl rfl]
      exact Or.inl fun _ _ => Iff.rfl
  | refused | counted | uncounted | vanished | received | rejected | lost | tornDown =>
    exact Or.inl fun _ _ => Iff.rfl

end Activity

namespace Orchestrator

variable {o o' : Orchestrator} {x : AssetId} {k : TaskId}

/-! ## Where a report is -/

/-- The report that a piece of work is about to record. -/
def reportAt (o : Orchestrator) (n : Nat) : Option (TaskId × LogEntry) :=
  (o.workAt n).bind (·.report?)

/-- Where the reports of a task are, given those that were made. -/
inductive Reporting (o : Orchestrator) (x : AssetId) (k : TaskId) : List LogEntry → Prop where
  | none (hwork : ∀ n e, o.reportAt n ≠ some (k, e))
    (hopen : ∀ t ∈ o.world.store.tasksOf x, t.id = k → t.progress = .pending) : Reporting o x k []
  | underway {n : Nat} {e : LogEntry} (hfinal : e.progress.isTerminal = true)
    (hthere : ∃ t ∈ o.world.store.tasksOf x, t.id = k) (hn : o.reportAt n = some (k, e))
    (honly : ∀ m e', o.reportAt m = some (k, e') → m = n)
    (hopen : ∀ t ∈ o.world.store.tasksOf x, t.id = k → t.progress = .pending) : Reporting o x k [e]
  | recorded {e : LogEntry} (hwork : ∀ n e', o.reportAt n ≠ some (k, e'))
    (hthere : ∃ t ∈ o.world.store.tasksOf x, t.id = k)
    (hlog : ∀ t ∈ o.world.store.tasksOf x, t.id = k → t.progress = e.progress) :
    Reporting o x k [e]

theorem reportAt_of_work {n : Nat} {rest? : Option Activity}
    (hwork : ∀ m, o'.workAt m = if m = n then rest? else o.workAt m) (m : Nat) :
    o'.reportAt m = if m = n then rest?.bind (·.report?) else o.reportAt m := by
  unfold reportAt
  rw [hwork]
  split <;> rfl

/-- A change of a piece that neither has nor gets a report of the task. -/
theorem reportAt_iff_of_other {n : Nat} {rest? : Option Activity}
    (hwork : ∀ m, o'.workAt m = if m = n then rest? else o.workAt m)
    (hbefore : ∀ a e, o.workAt n = some a → a.report? ≠ some (k, e))
    (hafter : ∀ a e, rest? = some a → a.report? ≠ some (k, e)) (m : Nat) (e : LogEntry) :
    o'.reportAt m = some (k, e) ↔ o.reportAt m = some (k, e) := by
  rw [reportAt_of_work hwork]
  split
  · next hm =>
    subst hm
    refine iff_of_false (fun hr => ?_) (fun hr => ?_)
    · obtain ⟨a, ha, hr⟩ := Option.bind_eq_some_iff.mp hr
      exact hafter a e ha hr
    · obtain ⟨a, ha, hr⟩ := Option.bind_eq_some_iff.mp hr
      exact hbefore a e ha hr
  · rfl

/-- What has nothing to do with a task and its reports leaves the reports where they are. -/
theorem Reporting.undisturbed {es : List LogEntry} (h : o.Reporting x k es)
    (hw : o'.world.store.WellFormed)
    (hwork : ∀ n e, o'.reportAt n = some (k, e) ↔ o.reportAt n = some (k, e))
    (htasks : (∀ t : Task, t.id = k →
        (t ∈ o'.world.store.tasksOf x ↔ t ∈ o.world.store.tasksOf x)) ∨
      ∃ u : Task, o'.world.store.tasksOf x = o.world.store.tasksOf x ++ [u] ∧
        u.progress = .pending) : o'.Reporting x k es := by
  have hopen' : (∀ t ∈ o.world.store.tasksOf x, t.id = k → t.progress = .pending) →
      ∀ t ∈ o'.world.store.tasksOf x, t.id = k → t.progress = .pending := by
    intro hopen t ht hid
    rcases htasks with hsame | ⟨u, happend, hu⟩
    · exact hopen t ((hsame t hid).mp ht) hid
    · rw [happend] at ht
      rcases List.mem_append.mp ht with ht | ht
      · exact hopen t ht hid
      · rw [List.mem_singleton.mp ht]
        exact hu
  have hthere' : (∃ t ∈ o.world.store.tasksOf x, t.id = k) →
      ∃ t ∈ o'.world.store.tasksOf x, t.id = k := by
    rintro ⟨t, ht, hid⟩
    refine ⟨t, ?_, hid⟩
    rcases htasks with hsame | ⟨u, happend, _⟩
    · exact (hsame t hid).mpr ht
    · rw [happend]
      exact List.mem_append_left _ ht
  cases h with
  | none hno hopen => exact .none (fun n e he => hno n e ((hwork n e).mp he)) (hopen' hopen)
  | underway hfinal hthere hn honly hopen =>
    refine .underway hfinal (hthere' hthere) ((hwork _ _).mpr hn) ?_ (hopen' hopen)
    exact fun m e' he => honly m e' ((hwork m e').mp he)
  | recorded hno hthere hlog =>
    refine .recorded (fun n e he => hno n e ((hwork n e).mp he)) (hthere' hthere) ?_
    intro t ht hid
    rcases htasks with hsame | ⟨u, happend, _⟩
    · exact hlog t ((hsame t hid).mp ht) hid
    · -- the new task has another id
      have hnodup := hw.taskIds_nodup x
      rw [← hw.map_id_tasksOf, happend, List.map_append, List.nodup_append] at hnodup
      rw [happend] at ht
      rcases List.mem_append.mp ht with ht | ht
      · exact hlog t ht hid
      · obtain ⟨t₀, ht₀, hid₀⟩ := hthere
        rw [List.mem_singleton.mp ht] at hid
        refine absurd ?_ (hnodup.2.2 _ (List.mem_map_of_mem ht₀) _ List.mem_cons_self)
        exact hid₀.trans hid.symm

/-! ## Events -/

/-- What goes on with the piece of work that has the report of a task. -/
theorem Reporting.carried {es : List LogEntry} (h : o.Reporting x k es) (hs : o.Sound) {n : Nat}
    {a : Activity} {e : LogEntry} (ha : o.workAt n = some a) (hk : a.report? = some (k, e))
    {ops : List Store.Operation} {rest? : Option Activity} (hm : a.Moves o.world ops rest?)
    (hwork : ∀ m, o'.workAt m = if m = n then rest? else o.workAt m)
    (htasks : o'.world.store.tasksOf x =
      ops.foldl (fun ts (op : Store.Operation) => op.onTasks x ts) (o.world.store.tasksOf x)) :
    o'.Reporting x k es := by
  have hw := hs.world.wellFormed
  have hwork' := reportAt_of_work hwork
  have hat : o.reportAt n = some (k, e) := by
    unfold reportAt
    rw [ha]
    exact hk
  cases h with
  | none hno => exact absurd hat (hno n e)
  | recorded hno => exact absurd hat (hno n e)
  | @underway m e₀ hfinal hthere hm₀ honly hopen =>
    obtain rfl := honly n e hat
    rw [hat] at hm₀
    cases hm₀
    obtain ⟨t, ht, hid⟩ := hthere
    have hstored : o.world.store.tasks.get? k = some t := by
      rw [← hid]
      exact (hw.mem_tasksOf_iff.mp ht).1
    rcases hm.report_cases hw hk hfinal hstored with ⟨rfl, y, rfl⟩ | ⟨hrest, hops⟩
    · -- the report has been taken up
      have hsame : o'.world.store.tasksOf x = o.world.store.tasksOf x := htasks
      refine .underway hfinal ⟨t, by rwa [hsame], hid⟩ (n := n) ?_ ?_ (by rwa [hsame])
      · rw [hwork', if_pos rfl]
        rfl
      · intro m e' he'
        rw [hwork'] at he'
        split at he'
        · assumption
        · exact honly m e' he'
    · rw [hops] at htasks
      refine .recorded ?_ ⟨t.report k e, ?_, ?_⟩ ?_
      · intro m e' he'
        rw [hwork'] at he'
        split at he'
        · obtain ⟨rest, hrest', he'⟩ := Option.bind_eq_some_iff.mp he'
          obtain ⟨_, _, rfl⟩ := hrest rest hrest'
          cases he'
        · next hne => exact hne (honly m e' he')
      · rw [htasks]
        exact List.mem_map_of_mem ht
      · exact (Task.report_becomes k e t).id.trans hid
      · intro u hu hid'
        rw [htasks] at hu
        obtain ⟨v, _, rfl⟩ := List.mem_map.mp hu
        exact Task.progress_report hfinal ((Task.report_becomes k e v).id.symm.trans hid')

/-- A report of a task that is there begins. -/
theorem Reporting.begun (h : o.Reporting x k []) {n : Nat} {e : LogEntry}
    (hwork : ∀ m, o'.workAt m = if m = n then some (.receive k e) else o.workAt m)
    (htasks : o'.world.store.tasksOf x = o.world.store.tasksOf x)
    (hfinal : e.progress.isTerminal = true) (hthere : ∃ t ∈ o.world.store.tasksOf x, t.id = k) :
    o'.Reporting x k [e] := by
  cases h with
  | none hno hopen =>
    refine .underway hfinal (by rwa [htasks]) (n := n) ?_ ?_ (by rwa [htasks])
    · rw [reportAt_of_work hwork, if_pos rfl]
      rfl
    · intro m e' he'
      rw [reportAt_of_work hwork] at he'
      split at he'
      · assumption
      · exact absurd he' (hno m e')

/-- An event leaves the reports of a task where they are, moves one on, or makes one. A report has
to come when its task is there, and no other report of the task may have been made. -/
theorem Reporting.handle {es : List LogEntry} (h : o.Reporting x k es) (hs : o.Sound) (e : Event)
    (hd : (o.handle e).world.ids.Distinct) {a b : Asset}
    (ha : o.world.store.assets.get? x = some a)
    (hb : (o.handle e).world.store.assets.get? x = some b)
    (he : ∀ entry, e = .report k entry → es = [] ∧ entry.progress.isTerminal = true ∧
      ∃ t ∈ o.world.store.tasksOf x, t.id = k) :
    (o.handle e).Reporting x k (es ++ reportsOf k [e]) := by
  obtain ⟨ops, hevolves, hh⟩ := handle_cases hs e hd
  have hw' := (hs.handle e hd).world.wellFormed
  generalize o.handle e = o' at hd hevolves hh hw' hb ⊢
  have htasks := (hevolves.asset_of_some hd hs.world ha hb).2.2
  -- a new piece takes the place of none
  have hnew : ∀ a e, o.workAt o.background.started = some a → a.report? ≠ some (k, e) := by
    intro a e ha
    rw [hs.workAt_started] at ha
    cases ha
  cases hh with
  | obeyed hobeys _ hwork =>
    rw [reportsOf_of_ne (by simp), List.append_nil]
    rw [hobeys.onTasks] at htasks
    refine h.undisturbed hw' (fun n e => ?_) (Or.inl fun t _ => by rw [htasks])
    rw [reportAt, hwork, reportAt]
  | idled _ hreport hwork =>
    rw [reportsOf_of_ne (hreport k), List.append_nil]
    refine h.undisturbed hw' (fun n e => ?_) (Or.inl fun t _ => by rw [htasks, List.foldl_nil])
    rw [reportAt, hwork, reportAt]
  | begun hobeys _ hwork =>
    rw [reportsOf_of_ne (by simp), List.append_nil]
    rw [hobeys.onTasks] at htasks
    refine h.undisturbed hw' (reportAt_iff_of_other hwork hnew ?_)
      (Or.inl fun t _ => by rw [htasks])
    intro a e ha hr
    cases ha
    rw [Work.report?_of_obeys hobeys] at hr
    cases hr
  | @reported id entry _ hwork =>
    by_cases hid : id = k
    · subst hid
      obtain ⟨rfl, hfinal, hthere⟩ := he entry rfl
      rw [reportsOf_self, List.nil_append]
      exact h.begun hwork htasks hfinal hthere
    · have hother : reportsOf k [.report id entry] = [] := by
        refine reportsOf_of_ne fun entry' heq => ?_
        cases heq
        exact hid rfl
      rw [hother, List.append_nil]
      refine h.undisturbed hw' (reportAt_iff_of_other hwork hnew ?_)
        (Or.inl fun t _ => by rw [htasks, List.foldl_nil])
      intro a e ha hr
      cases ha
      cases hr
      exact hid rfl
  | @stepped n act _ rest? _ hact hm hwork =>
    rw [reportsOf_of_ne (by simp), List.append_nil]
    by_cases hk : ∃ e, act.report? = some (k, e)
    · obtain ⟨e, hk⟩ := hk
      exact h.carried hs hact hk hm hwork htasks
    · have hno : ∀ e, act.report? ≠ some (k, e) := fun e hr => hk ⟨e, hr⟩
      refine h.undisturbed hw' (reportAt_iff_of_other hwork ?_ ?_) ?_
      · intro a e ha
        rw [hact] at ha
        cases ha
        exact hno e
      · rintro rest e rfl hr
        exact hno e (hm.report? hr)
      · rw [htasks]
        exact hm.tasks_of_other hs.world.wellFormed hno x _

/-! ## Runs -/

/-- The tasks whose reports are under way. -/
def underway (o : Orchestrator) : List TaskId :=
  (List.range o.background.started).filterMap fun n => (o.reportAt n).map (·.1)

theorem mem_underway_of_reportAt (hs : o.Sound) {n : Nat} {e : LogEntry}
    (h : o.reportAt n = some (k, e)) : k ∈ o.underway := by
  obtain ⟨a, ha, _⟩ := Option.bind_eq_some_iff.mp h
  refine List.mem_filterMap.mpr ⟨n, List.mem_range.mpr (hs.started n a ha), ?_⟩
  rw [h]
  rfl

/-- Every report of the tasks of an asset comes when its task is there. -/
def Awaits (o : Orchestrator) (x : AssetId) (ids : List TaskId) : List Event → Prop
  | [] => True
  | e :: es => (∀ r ∈ e.report?, r.1 ∈ ids → r.1 ∈ (o.world.store.tasksOf x).map (·.id)) ∧
    (o.handle e).Awaits x ids es

instance Awaits.decide (o : Orchestrator) (x : AssetId) (ids : List TaskId) :
    (es : List Event) → Decidable (o.Awaits x ids es)
  | [] => .isTrue trivial
  | e :: es =>
    have := Awaits.decide (o.handle e) x ids es
    inferInstanceAs (Decidable (_ ∧ _))

theorem Awaits.of_append {ids : List TaskId} {es es' : List Event}
    (h : o.Awaits x ids (es ++ es')) : o.Awaits x ids es := by
  induction es generalizing o with
  | nil => trivial
  | cons e es ih => exact ⟨h.1, ih h.2⟩

/-- Where the reports of a task are in a run in which at most one is made. -/
theorem Reporting.after {es : List LogEntry} (h : o.Reporting x k es) (hs : o.Sound)
    {es' : List Event} (hd : (o.after es').world.ids.Distinct) {a b : Asset}
    (ha : o.world.store.assets.get? x = some a)
    (hb : (o.after es').world.store.assets.get? x = some b) {ids : List TaskId} (hk : k ∈ ids)
    (hawaits : o.Awaits x ids es') (hone : (es ++ reportsOf k es').length ≤ 1)
    (hfinal : ∀ e ∈ reportsOf k es', e.progress.isTerminal = true) :
    (o.after es').Reporting x k (es ++ reportsOf k es') := by
  induction es' generalizing o es a with
  | nil =>
    rw [reportsOf, List.filterMap_nil, List.append_nil]
    exact h
  | cons e es' ih =>
    rw [after_cons] at hd hb ⊢
    rw [reportsOf_cons] at hone hfinal ⊢
    have hd' := (after_extends (o.handle e) es').distinct hd
    have hs' := hs.handle e hd'
    have hdrawn := (o.handle_extends e).hasDrawnAsset (hs.world.asset x a ha)
    obtain ⟨c, hc⟩ := exists_of_after hs' hd hdrawn hb
    -- the reports that are left come after the one that the first event may make
    have hmid := h.handle hs e hd' ha hc ?_
    · rw [← List.append_assoc] at hone ⊢
      refine ih hmid hs' hd hc hb hawaits.2 hone fun e' he' => ?_
      exact hfinal e' (List.mem_append_right _ he')
    · rintro entry rfl
      rw [reportsOf_self] at hone hfinal
      refine ⟨?_, hfinal entry (List.mem_append_left _ List.mem_cons_self), ?_⟩
      · rw [List.length_append, List.length_append, List.length_singleton] at hone
        exact List.length_eq_zero_iff.mp (by omega)
      · obtain ⟨t, ht, hid⟩ := List.mem_map.mp (hawaits.1 _ rfl hk)
        exact ⟨t, ht, hid⟩

end Orchestrator

end GeoAssets
