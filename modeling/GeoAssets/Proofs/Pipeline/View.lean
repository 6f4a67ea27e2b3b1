import GeoAssets.Proofs.Lifecycle.Decision
import GeoAssets.Proofs.Run.Invariant

/-!
# Pipelines as seen from one asset

Seen from one asset little happens in a run: one piece of work may be about it, which submits its
jobs, sets the number of tasks and looks whether these decide; and reports of its tasks are recorded
(`View.Steps`). Whatever else happens leaves the asset, its tasks and its piece of work alone.
-/

namespace GeoAssets

/-! ## Views -/

/-- What is seen of an asset: the asset, its tasks, and what is left of the work on it. -/
structure View where
  asset : Asset
  tasks : List Task
  work : Option Activity

/-- The task after a report that is about the task with an id. -/
def Task.report (id : TaskId) (e : LogEntry) (t : Task) : Task :=
  Store.only id (fun t : Task => { t with log := t.log ++ [e] }) t.id t

/-- What an event may do to what is seen of an asset. -/
inductive View.Steps : View → View → Prop where
  /-- What happens has nothing to do with the asset. -/
  | stays (v : View) : Steps v v
  | reported {a b : Asset} {ts : List Task} {work : Option Activity} {id : TaskId} {e : LogEntry}
    (ht : ∃ t ∈ ts, t.id = id) (h : a.Decided (ts.map (Task.report id e)) b) :
    Steps ⟨a, ts, work⟩ ⟨b, ts.map (Task.report id e), work⟩
  | submitted {a c : Asset} {ts : List Task} {job : Job} {jobs : List Job}
    {ids : Directory String TaskId} {goal : Option Goal} {now : Timestamp} {id : TaskId} :
    Steps ⟨a, ts, some (.submit c (job :: jobs) ids goal)⟩
      ⟨a, ts ++ [Submission.newTask now c.id id job],
        some (.submit c jobs (ids.insert job.name id) goal)⟩
  | refused {a c : Asset} {ts : List Task} {job : Job} {jobs : List Job}
    {ids : Directory String TaskId} {goal : Option Goal} {cause : Error} :
    Steps ⟨a, ts, some (.submit c (job :: jobs) ids goal)⟩
      ⟨a, ts, some (.abandon c job.name cause)⟩
  | counted {a c : Asset} {ts : List Task} {ids : Directory String TaskId} {goal : Goal}
    (h : ids.size < UInt32.size) : Steps ⟨a, ts, some (.submit c [] ids (some goal))⟩
      ⟨a, ts, some (.expect c (.ofNat ids.size) goal)⟩
  | uncounted {a c : Asset} {ts : List Task} {ids : Directory String TaskId} {goal? : Option Goal}
    (h : goal? = none ∨ UInt32.size ≤ ids.size) :
    Steps ⟨a, ts, some (.submit c [] ids goal?)⟩ ⟨a, ts, none⟩
  | abandoned {a b c : Asset} {ts : List Task} {job : String} {cause : Error}
    (h : a.Settled .failed b) : Steps ⟨a, ts, some (.abandon c job cause)⟩ ⟨b, ts, none⟩
  | expected {a c : Asset} {ts : List Task} {count : UInt32} {goal : Goal} :
    Steps ⟨a, ts, some (.expect c count goal)⟩
      ⟨{ a with expectedTasks := some count }, ts, some (.evaluate c.id goal)⟩
  | evaluated {a b : Asset} {x : AssetId} {ts : List Task} {goal : Goal} (h : a.Decided ts b) :
    Steps ⟨a, ts, some (.evaluate x goal)⟩ ⟨b, ts, none⟩
  | inspected {a c : Asset} {ts : List Task} {o : Outcome} {goal : Goal}
    (h : o.status.isTerminal = true) : Steps ⟨a, ts, some (.inspect c goal)⟩
      ⟨{ a with expectedTasks := some 0 }, ts, some (.settle c o goal)⟩
  | settled {a b c : Asset} {ts : List Task} {o : Outcome} {goal : Goal}
    (h : a.Settled o.status b) : Steps ⟨a, ts, some (.settle c o goal)⟩ ⟨b, ts, none⟩

namespace Orchestrator

/-- What is left of a piece of work, if it is about the asset. -/
def workOn (o : Orchestrator) (x : AssetId) (p : Nat) : Option Activity :=
  (o.workAt p).filter fun a => a.subject? = some x

/-- What is seen of an asset on which a piece of work is done. -/
def view? (o : Orchestrator) (x : AssetId) (p : Nat) : Option View :=
  (o.world.store.assets.get? x).map fun a => ⟨a, o.world.store.tasksOf x, o.workOn x p⟩

/-- No other piece of work is about the asset, whose id was drawn before. -/
structure Watches (o : Orchestrator) (x : AssetId) (p : Nat) : Prop where
  drawn : o.world.ids.HasDrawnAsset x
  only : ∀ n a, o.workAt n = some a → a.subject? = some x → n = p

variable {o o' : Orchestrator} {x : AssetId} {p : Nat} {v v' : View}

theorem workOn_eq_some_iff {a : Activity} :
    o.workOn x p = some a ↔ o.workAt p = some a ∧ a.subject? = some x := by
  unfold workOn
  rw [Option.filter_eq_some_iff, decide_eq_true_eq]

theorem workOn_eq_none_iff :
    o.workOn x p = none ↔ ∀ a, o.workAt p = some a → a.subject? ≠ some x := by
  unfold workOn
  rw [Option.filter_eq_none_iff]
  simp only [decide_eq_true_eq]

theorem view?_eq_some_iff : o.view? x p = some v ↔
    o.world.store.assets.get? x = some v.asset ∧ v.tasks = o.world.store.tasksOf x ∧
      v.work = o.workOn x p := by
  unfold view?
  rw [Option.map_eq_some_iff]
  constructor
  · rintro ⟨a, ha, rfl⟩
    exact ⟨ha, rfl, rfl⟩
  · rintro ⟨ha, hts, hwork⟩
    refine ⟨v.asset, ha, ?_⟩
    rw [← hts, ← hwork]

theorem workOn_of_ended (h : o.workAt p = none) : o.workOn x p = none := by
  unfold workOn
  rw [h]
  rfl

/-- A change of a piece that neither was nor becomes about the asset. -/
theorem workOn_of_other {n : Nat} {rest? : Option Activity}
    (hwork : ∀ m, o'.workAt m = if m = n then rest? else o.workAt m)
    (hbefore : ∀ a, o.workAt n = some a → a.subject? ≠ some x)
    (hafter : ∀ a, rest? = some a → a.subject? ≠ some x) : o'.workOn x p = o.workOn x p := by
  by_cases hp : p = n
  · have hnone : o.workOn x p = none := workOn_eq_none_iff.mpr (hp ▸ hbefore)
    rw [hnone]
    refine workOn_eq_none_iff.mpr fun a ha => ?_
    rw [hwork, if_pos hp] at ha
    exact hafter a ha
  · unfold workOn
    rw [hwork, if_neg hp]

theorem workOn_of_same (hwork : ∀ m, o'.workAt m = o.workAt m) : o'.workOn x p = o.workOn x p := by
  unfold workOn
  rw [hwork]

/-! ## Watching -/

/-- No event files the asset once more. -/
theorem Watches.files_ne (hw : o.Watches x p) {ops : List Store.Operation}
    (he : o.world.Evolves ops o'.world) (hd : o'.world.ids.Distinct) {op : Store.Operation}
    (hop : op ∈ ops) {c : Asset} (hf : op.files? = some c) : c.id ≠ x := by
  rintro rfl
  exact he.ids.not_hasDrawnAsset hd (he.files op hop c hf) hw.drawn

/-- New work is about another asset. -/
theorem Watches.begun_ne (hw : o.Watches x p) {ops : List Store.Operation} {work : Work}
    (he : o.world.Evolves ops o'.world) (hd : o'.world.ids.Distinct)
    (h : Command.Obeys ops (some work)) : work.activity.subject? ≠ some x := by
  intro hx
  rcases h.work with ⟨actions, hact⟩ | ⟨op, a, g, rfl, hf, _, _, rfl⟩
  · rw [hact] at hx
    cases hx
  · rw [Work.subject?_pipeline] at hx
    cases hx
    exact hw.files_ne he hd List.mem_cons_self hf rfl

/-- What is left of other work is about another asset. -/
theorem Watches.rest_ne (hw : o.Watches x p) {ops : List Store.Operation} {a rest : Activity}
    (he : o.world.Evolves ops o'.world) (hd : o'.world.ids.Distinct)
    (hm : a.Moves o.world ops (some rest)) (ha : a.subject? ≠ some x) :
    rest.subject? ≠ some x := by
  intro hx
  rcases hm.subject? hx with h | ⟨c, _, hid, rfl⟩
  · exact ha h
  · exact hw.files_ne he hd List.mem_cons_self (c := c) rfl hid

theorem Watches.handle (hw : o.Watches x p) (hs : o.Sound) (e : Event)
    (hd : (o.handle e).world.ids.Distinct) : (o.handle e).Watches x p := by
  obtain ⟨ops, he, hh⟩ := handle_cases hs e hd
  refine ⟨(o.handle_extends e).hasDrawnAsset hw.drawn, ?_⟩
  intro n a ha hx
  cases hh with
  | obeyed _ _ hwork | idled _ _ hwork =>
    rw [hwork] at ha
    exact hw.only n a ha hx
  | begun h _ hwork =>
    rw [hwork] at ha
    split at ha
    · cases ha
      exact absurd hx (hw.begun_ne he hd h)
    · exact hw.only n a ha hx
  | reported hwork =>
    rw [hwork] at ha
    split at ha
    · cases ha
      cases hx
    · exact hw.only n a ha hx
  | @stepped m b _ rest? _ hb hm hwork =>
    rw [hwork] at ha
    split at ha
    · next hn =>
      subst ha
      by_cases hxb : b.subject? = some x
      · rw [hn]
        exact hw.only m b hb hxb
      · exact absurd hx (hw.rest_ne he hd hm hxb)
    · exact hw.only n a ha hx

/-! ## Steps -/

theorem filter_subject {a : Activity} (h : a.subject? = some x) :
    ((some a).filter fun a => a.subject? = some x) = some a :=
  Option.filter_some_pos (decide_eq_true h)

/-- To register a tile cache is not about an asset. -/
theorem filter_of_registers {rest? : Option Activity} (h : Registers rest?) :
    (rest?.filter fun a => a.subject? = some x) = none := by
  cases rest? with
  | none => rfl
  | some rest =>
    obtain ⟨_, _, rfl⟩ := h rest rfl
    rfl

/-- What a step does to the asset that it is about. -/
theorem steps_of_subject {a : Activity} {rest? : Option Activity} {ops : List Store.Operation}
    (hs : o.Sound) (hm : a.Moves o.world ops rest?) (hx : a.subject? = some x) {y : Asset}
    (hy : o.world.store.assets.get? x = some y) :
    View.Steps ⟨y, o.world.store.tasksOf x, some a⟩
      ⟨ops.foldl (fun a (op : Store.Operation) => op.onAsset x a) y,
        ops.foldl (fun ts (op : Store.Operation) => op.onTasks x ts) (o.world.store.tasksOf x),
        rest?.filter fun a => a.subject? = some x⟩ := by
  have hw := hs.world.wellFormed
  have hid : ∀ {c : Asset}, a.copy? = some c → c.id = x := by
    intro c hc
    rw [Activity.subject?_of_copy? hc] at hx
    exact Option.some.inj hx
  cases hm with
  | @submitted c job _ _ _ id =>
    obtain rfl := hid rfl
    have hasset : (Submission.newTask o.world.now c.id id job).asset = c.id := rfl
    rw [filter_subject rfl, List.foldl_cons, List.foldl_cons, Store.Operation.onTasks,
      if_pos hasset]
    exact .submitted
  | refused =>
    obtain rfl := hid rfl
    rw [filter_subject rfl]
    exact .refused
  | counted h =>
    obtain rfl := hid rfl
    rw [filter_subject rfl]
    exact .counted h
  | uncounted h => exact .uncounted h
  | abandoned h =>
    obtain rfl := hid rfl
    rw [h.onTasks hw]
    exact .abandoned (h.onAsset hw hy)
  | expected =>
    obtain rfl := hid rfl
    rw [filter_subject rfl, List.foldl_cons, List.foldl_cons, Store.Operation.onAsset,
      Store.only_self, Store.Operation.onTasks_of_nothing rfl rfl]
    exact .expected
  | evaluated h hrest =>
    cases hx
    rw [h.onTasks hw, filter_of_registers hrest]
    exact .evaluated (h.onAsset hw hy)
  | inspected =>
    obtain rfl := hid rfl
    rw [filter_subject rfl, List.foldl_cons, List.foldl_cons, Store.Operation.onAsset,
      Store.only_self, Store.Operation.onTasks_of_nothing rfl rfl]
    exact .inspected (Activity.inspectedOutcome_fits _ _).status
  | vanished hcopy hnone =>
    rw [hid hcopy, hy] at hnone
    cases hnone
  | settled h hrest =>
    obtain rfl := hid rfl
    rw [h.onTasks hw, filter_of_registers hrest]
    exact .settled (h.onAsset hw hy)
  | received | rejected | recorded | lost | registered | unregistered | tornDown => cases hx

/-- What a report does to what is stored of the asset of its task, before the tasks decide. -/
theorem tasksOf_of_appendTaskLog {w : World} (hw : w.store.WellFormed) {id : TaskId} {e : LogEntry}
    {t : Task} {s : Store} (ht : w.store.appendTaskLog id e = .ok (t, s)) {y : Asset}
    (hy : w.store.assets.get? t.asset = some y) :
    s.assets.get? t.asset = some y ∧
      s.tasksOf t.asset = (w.store.tasksOf t.asset).map (Task.report id e) ∧
      ∃ u ∈ w.store.tasksOf t.asset, u.id = id := by
  have hperf : w.store.Performs (.appendTaskLog id e) s := .appendTaskLog ht
  obtain ⟨u, hu, rfl, rfl⟩ := Store.appendTaskLog_eq_ok ht
  have hid := hw.task_id id u hu
  have hstored : w.store.tasks.get? u.id = some u := by
    rw [hid]
    exact hu
  refine ⟨hy, ?_, u, hw.mem_tasksOf_iff.mpr ⟨hstored, rfl⟩, hid⟩
  rcases hperf.asset_of_some hw hy with ⟨hnone, _⟩ | ⟨_, htasks⟩
  · cases hnone.symm.trans hy
  · exact htasks

/-- What a report does to the asset of its task. -/
theorem steps_of_report (hs : o.Sound) {id : TaskId} {e : LogEntry} {t : Task} {s : Store}
    (ht : o.world.store.appendTaskLog id e = .ok (t, s)) {ops : List Store.Operation}
    (h : World.Deciding { o.world with store := s } t.asset ops) {y : Asset}
    (hy : o.world.store.assets.get? t.asset = some y) (work : Option Activity) :
    View.Steps ⟨y, o.world.store.tasksOf t.asset, work⟩
      ⟨ops.foldl (fun a (op : Store.Operation) => op.onAsset t.asset a) y,
        ops.foldl (fun ts (op : Store.Operation) => op.onTasks t.asset ts)
          ((o.world.store.tasksOf t.asset).map (Task.report id e)), work⟩ := by
  have hw := (Store.Performs.appendTaskLog ht).wellFormed hs.world.wellFormed
  obtain ⟨hys, htasks, hmem⟩ := tasksOf_of_appendTaskLog hs.world.wellFormed ht hy
  have hdecided := h.onAsset hw hys
  rw [h.onTasks hw]
  dsimp only at hdecided
  rw [htasks] at hdecided
  exact .reported hmem hdecided

/-- What a step does to an asset that it is not about. -/
theorem steps_of_other {a : Activity} {rest? : Option Activity} {ops : List Store.Operation}
    (hs : o.Sound) (hm : a.Moves o.world ops rest?) (hx : a.subject? ≠ some x) {y : Asset}
    (hy : o.world.store.assets.get? x = some y) (work : Option Activity) :
    View.Steps ⟨y, o.world.store.tasksOf x, work⟩
      ⟨ops.foldl (fun a (op : Store.Operation) => op.onAsset x a) y,
        ops.foldl (fun ts (op : Store.Operation) => op.onTasks x ts) (o.world.store.tasksOf x),
        work⟩ := by
  have hw := hs.world.wellFormed
  have hne : ∀ {z : AssetId}, a.subject? = some z → x ≠ z := by
    rintro z hz rfl
    exact hx hz
  cases hm with
  | @submitted c job _ _ _ id =>
    have hasset : (Submission.newTask o.world.now c.id id job).asset ≠ x := (hne rfl).symm
    rw [List.foldl_cons, List.foldl_cons, Store.Operation.onTasks, if_neg hasset]
    exact .stays _
  | abandoned h =>
    rw [h.onTasks hw, h.onAsset_of_ne hw (hne rfl)]
    exact .stays _
  | expected | inspected =>
    rw [List.foldl_cons, List.foldl_cons, Store.Operation.onAsset, Store.only_of_ne (hne rfl),
      Store.Operation.onTasks_of_nothing rfl rfl]
    exact .stays _
  | evaluated h =>
    rw [h.onTasks hw, h.onAsset_of_ne hw (hne rfl)]
    exact .stays _
  | settled h =>
    rw [h.onTasks hw, h.onAsset_of_ne hw (hne rfl)]
    exact .stays _
  | @recorded _ id e t s ops' _ ht h =>
    rw [List.foldl_cons, List.foldl_cons]
    by_cases hxt : t.asset = x
    · subst hxt
      exact steps_of_report hs ht h hy work
    · have hws := (Store.Performs.appendTaskLog ht).wellFormed hw
      have hsame : (Store.Operation.appendTaskLog id e).onTasks x (o.world.store.tasksOf x) =
          o.world.store.tasksOf x := by
        -- the task that is reported is none of the asset's
        obtain ⟨u, hu, rfl, _⟩ := Store.appendTaskLog_eq_ok ht
        refine (List.map_congr_left fun v hv => ?_).trans (List.map_id _)
        have hvid : v.id ≠ id := by
          intro hid
          obtain ⟨hstored, rfl⟩ := hw.mem_tasksOf_iff.mp hv
          rw [hid, hu] at hstored
          cases hstored
          exact hxt rfl
        rw [Store.Operation.onTask, Store.only_of_ne hvid]
        rfl
      rw [h.onTasks hws, h.onAsset_of_ne hws (Ne.symm hxt), hsame]
      exact .stays _
  | registered =>
    rw [List.foldl_cons, List.foldl_cons, Store.Operation.onAsset_of_isRequest rfl,
      Store.Operation.onTasks_of_isRequest rfl]
    exact .stays _
  | unregistered h =>
    rcases h with rfl | ⟨e, rfl⟩
    · exact .stays _
    · rw [List.foldl_cons, List.foldl_cons, Store.Operation.onTasks_of_nothing rfl rfl]
      exact .stays _
  | refused | counted | uncounted | vanished | received | rejected | lost | tornDown =>
    exact .stays _

/-! ## Events -/

/-- What an event does to what is seen of an asset, as long as the asset is there. -/
theorem Watches.steps (hw : o.Watches x p) (hs : o.Sound) (e : Event)
    (hd : (o.handle e).world.ids.Distinct) (hv : o.view? x p = some v)
    (hv' : (o.handle e).view? x p = some v') : v.Steps v' := by
  obtain ⟨ops, he, hh⟩ := handle_cases hs e hd
  generalize o.handle e = o' at hd he hh hv'
  obtain ⟨y, ts, work⟩ := v
  obtain ⟨y', ts', work'⟩ := v'
  obtain ⟨hy, rfl, rfl⟩ := view?_eq_some_iff.mp hv
  obtain ⟨hy', rfl, rfl⟩ := view?_eq_some_iff.mp hv'
  obtain ⟨rfl, _, htasks⟩ := he.asset_of_some hd hs.world hy hy'
  dsimp only at htasks ⊢
  rw [htasks]
  cases hh with
  | obeyed h _ hwork =>
    rw [h.onAsset, h.onTasks, workOn_of_same hwork]
    exact .stays _
  | begun h _ hwork =>
    have hother : o'.workOn x p = o.workOn x p := by
      refine workOn_of_other hwork ?_ ?_
      · intro a ha
        rw [hs.workAt_started] at ha
        cases ha
      · intro a ha
        cases ha
        exact hw.begun_ne he hd h
    rw [h.onAsset, h.onTasks, hother]
    exact .stays _
  | reported hwork =>
    have hother : o'.workOn x p = o.workOn x p := by
      refine workOn_of_other hwork ?_ ?_
      · intro a ha
        rw [hs.workAt_started] at ha
        cases ha
      · intro a ha
        cases ha
        intro h
        cases h
    rw [hother]
    exact .stays _
  | idled _ _ hwork =>
    rw [workOn_of_same hwork]
    exact .stays _
  | @stepped n a _ rest? _ ha hm hwork =>
    -- only the watched piece is about the asset
    by_cases hx : a.subject? = some x
    · obtain rfl := hw.only n a ha hx
      have hbefore : o.workOn x n = some a := workOn_eq_some_iff.mpr ⟨ha, hx⟩
      have hafter : o'.workOn x n = rest?.filter fun a => a.subject? = some x := by
        unfold workOn
        rw [hwork, if_pos rfl]
      rw [hbefore, hafter]
      exact steps_of_subject hs hm hx hy
    · have hother : o'.workOn x p = o.workOn x p := by
        refine workOn_of_other hwork ?_ ?_
        · intro b hb
          rw [ha] at hb
          cases hb
          exact hx
        · rintro rest rfl
          exact hw.rest_ne he hd hm hx
      rw [hother]
      exact steps_of_other hs hm hx hy _

end Orchestrator

end GeoAssets
