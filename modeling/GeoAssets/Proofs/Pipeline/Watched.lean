import GeoAssets.Proofs.Pipeline.Stage

/-!
# Pipelines in runs

From the event that files an asset one piece of work is about it, and what is seen of the asset
changes by steps as long as the asset is there. So every asset of a run is at a stage of its
pipeline, and is pending only if none of its tasks has failed.
-/

namespace GeoAssets

/-! ## Failed tasks -/

/-- No task of a pending asset has failed. -/
def View.Calm (v : View) : Prop :=
  v.asset.status = .pending → ∀ t ∈ v.tasks, t.progress ≠ .failed

theorem Asset.Decided.calm {a b : Asset} {ts : List Task} {work : Option Activity}
    (h : a.Decided ts b) : View.Calm ⟨b, ts, work⟩ := by
  intro hpending
  cases h with
  | final h =>
    change a.status = .pending at hpending
    rw [hpending] at h
    cases h
  | failed _ _ hstatus | saved _ _ _ _ hstatus =>
    change b.status = .pending at hpending
    rw [hstatus] at hpending
    cases hpending
  | waits _ hnone => exact hnone

theorem View.Calm.step {v v' : View} (h : v.Calm) (hs : v.Steps v') : v'.Calm := by
  cases hs with
  | stays | refused | counted | uncounted | expected | inspected => exact h
  | reported _ hd => exact hd.calm
  | evaluated hd => exact hd.calm
  | submitted =>
    intro hpending t ht
    rcases List.mem_append.mp ht with ht | ht
    · exact h hpending t ht
    · rw [List.mem_singleton.mp ht, Submission.newTask_progress]
      decide
  | abandoned hd | settled hd =>
    cases hd with
    | final => exact h
    | pending ha => exact fun _ => h ha

/-! ## Filing -/

/-- Only the registration of a tile cache files an asset. -/
theorem Activity.Moves.files {w : World} {a : Activity} {ops : List Store.Operation}
    {rest? : Option Activity} (hw : w.store.WellFormed) (hm : a.Moves w ops rest?)
    {op : Store.Operation} (hop : op ∈ ops) {c : Asset} (hf : op.files? = some c) :
    ∃ table goal, a = .register table goal ∧ ops = [.createAsset c] ∧
      rest? = some (.inspect c goal) := by
  have hreq := Store.Operation.isRequest_of_files? hf
  have hno : ∀ {ops : List Store.Operation}, (∀ op ∈ ops, op.isRequest = false) → op ∉ ops := by
    intro ops hall hmem
    rw [hall op hmem] at hreq
    cases hreq
  cases hm with
  | registered =>
    rw [List.mem_singleton.mp hop] at hf
    cases hf
    exact ⟨_, _, rfl, rfl, rfl⟩
  | abandoned h | settled h => exact absurd hop (hno (h.isRequest hw))
  | evaluated h => exact absurd hop (hno (h.isRequest hw))
  | recorded ht h =>
    rcases List.mem_cons.mp hop with rfl | hop
    · cases hf
    · have hws := (Store.Performs.appendTaskLog ht).wellFormed hw
      exact absurd hop (hno (h.isRequest hws))
  | submitted | expected | inspected =>
    rw [List.mem_singleton.mp hop] at hf
    cases hf
  | unregistered h =>
    rcases h with rfl | ⟨e, rfl⟩
    · cases hop
    · rw [List.mem_singleton.mp hop] at hf
      cases hf
  | refused | counted | uncounted | vanished | received | rejected | lost | tornDown => cases hop

namespace Orchestrator

variable {o o' : Orchestrator} {x : AssetId} {p : Nat} {v v' : View}

/-! ## Runs -/

theorem Watches.after (hw : o.Watches x p) (hs : o.Sound) {es : List Event}
    (hd : (o.after es).world.ids.Distinct) : (o.after es).Watches x p :=
  after_induction (p := fun o => o.Watches x p) hs hd hw fun _ e hs hd hw => hw.handle hs e hd

theorem view?_of_asset {a : Asset} (ha : o.world.store.assets.get? x = some a) (p : Nat) :
    o.view? x p = some ⟨a, o.world.store.tasksOf x, o.workOn x p⟩ :=
  view?_eq_some_iff.mpr ⟨ha, rfl, rfl⟩

/-- What steps keep holds of an asset in a run, as long as the asset is there. -/
theorem Watches.keeps {q : View → Prop} (hq : ∀ v v', q v → v.Steps v' → q v')
    (hw : o.Watches x p) (hs : o.Sound) {es : List Event} (hd : (o.after es).world.ids.Distinct)
    (hv : o.view? x p = some v) (h : q v) (hv' : (o.after es).view? x p = some v') : q v' := by
  induction es generalizing o v with
  | nil =>
    rw [after_nil, hv] at hv'
    cases hv'
    exact h
  | cons e es ih =>
    rw [after_cons] at hd hv'
    have hd' := (after_extends (o.handle e) es).distinct hd
    have hs' := hs.handle e hd'
    have hw' := hw.handle hs e hd'
    -- the asset is there in between, for it is there at the end
    obtain ⟨a, ha⟩ := exists_of_after hs' hd hw'.drawn (view?_eq_some_iff.mp hv').1
    have hmid := view?_of_asset ha p
    exact ih hw' hs' hd hmid (hq _ _ h (hw.steps hs e hd' hv hmid)) hv'

/-! ## The beginning -/

/-- What is seen of an asset that is filed, when a piece of work on it begins. -/
theorem view_of_files {op : Store.Operation} (hs : o.Sound) (he : o.world.Evolves [op] o'.world)
    (hd : o'.world.ids.Distinct) {a : Asset} (hf : op.files? = some a) {act : Activity}
    (hact : act.subject? = some a.id)
    (hwork : ∀ m, o'.workAt m = if m = p then some act else o.workAt m) :
    a.IsNew ∧ o'.Watches a.id p ∧ o'.view? a.id p = some ⟨a, [], some act⟩ := by
  have hw := hs.world.wellFormed
  have hb := he.store.asset_of_files hf
  have hnew : ¬ o.world.ids.HasDrawnAsset a.id :=
    he.ids.not_hasDrawnAsset hd (he.files op List.mem_cons_self a hf)
  have hnone : o.world.store.assets.get? a.id = none := by
    cases ha : o.world.store.assets.get? a.id with
    | none => rfl
    | some c => exact absurd (hs.world.asset _ c ha) hnew
  obtain ⟨_, hisNew, htasks⟩ := he.store.asset_of_single hw hnone hb
  refine ⟨hisNew, ⟨(hs.world.evolve he).asset a.id a hb, fun n b hn hx => ?_⟩, ?_⟩
  · rw [hwork] at hn
    split at hn
    · assumption
    · exact absurd (hs.subject n b a.id hn hx) hnew
  · refine view?_eq_some_iff.mpr ⟨hb, htasks.symm, (workOn_eq_some_iff.mpr ⟨?_, hact⟩).symm⟩
    rw [hwork, if_pos rfl]

theorem stage_pipeline {a : Asset} (ha : a.IsNew) (g : JobGraph) :
    View.Stage g.order ⟨a, [], some (Work.pipeline a g).activity⟩ := by
  have hact : (Work.pipeline a g).activity = Activity.ofGraph a g .pipeline := rfl
  rw [hact, Activity.ofGraph]
  split
  · next hempty => exact .inspecting (g.order_of_isEmpty hempty) ha.expectedTasks
  · exact .submitting (List.nil_append _) .nil rfl ha.expectedTasks

/-! ## All assets -/

/-- Some piece works on the asset, and the asset is at a stage of it. -/
def Staged (o : Orchestrator) (x : AssetId) (p : Nat) (jobs : List Job) : Prop :=
  (jobs.map (·.name)).Nodup ∧ o.Watches x p ∧ ∀ v, o.view? x p = some v → v.Stage jobs ∧ v.Calm

theorem Staged.after {jobs : List Job} (h : o.Staged x p jobs) (hs : o.Sound) {a : Asset}
    (ha : o.world.store.assets.get? x = some a) {es : List Event}
    (hd : (o.after es).world.ids.Distinct) : (o.after es).Staged x p jobs := by
  obtain ⟨hnames, hw, hv⟩ := h
  refine ⟨hnames, hw.after hs hd, fun v' hv' => ?_⟩
  have hstage := hv _ (view?_of_asset ha p)
  refine hw.keeps (q := fun v => v.Stage jobs ∧ v.Calm) ?_ hs hd (view?_of_asset ha p) hstage hv'
  exact fun _ _ h hs => ⟨h.1.step hnames hs, h.2.step hs⟩

theorem Staged.of_view {jobs : List Job} (hnames : (jobs.map (·.name)).Nodup)
    (hw : o.Watches x p) (hv : o.view? x p = some v) (hstage : v.Stage jobs) (hcalm : v.Calm) :
    o.Staged x p jobs := by
  refine ⟨hnames, hw, fun v' hv' => ?_⟩
  rw [hv] at hv'
  cases hv'
  exact ⟨hstage, hcalm⟩

theorem names_order_nodup {g : JobGraph} (h : (g.jobs.map (·.name)).Nodup) :
    (g.order.map (·.name)).Nodup :=
  (g.order_perm.map _).nodup_iff.mpr h

/-- The pipeline of an asset that is filed begins. -/
theorem staged_of_pipeline {op : Store.Operation} (hs : o.Sound)
    (he : o.world.Evolves [op] o'.world) (hd : o'.world.ids.Distinct) {a : Asset}
    (hf : op.files? = some a) {g : JobGraph} (hnames : (g.jobs.map (·.name)).Nodup)
    (hwork : ∀ m, o'.workAt m = if m = p then some (Work.pipeline a g).activity else o.workAt m) :
    o'.Staged a.id p g.order := by
  obtain ⟨hnew, hw, hv⟩ := view_of_files hs he hd hf (Work.subject?_pipeline a g) hwork
  exact .of_view (names_order_nodup hnames) hw hv (stage_pipeline hnew g)
    fun _ _ ht => by cases ht

/-- What is seen of an asset that appears: its pipeline begins, or it is looked at. -/
theorem view_of_filed {e : Event} {ops : List Store.Operation} (hs : o.Sound)
    (he : o.world.Evolves ops o'.world) (hd : o'.world.ids.Distinct) (hh : o.Handles e ops o')
    {b : Asset} (hnone : o.world.store.assets.get? x = none)
    (hb : o'.world.store.assets.get? x = some b) :
    ∃ p act, b.IsNew ∧ o'.Watches x p ∧ o'.view? x p = some ⟨b, [], some act⟩ ∧
      ((∃ g : JobGraph, (g.jobs.map (·.name)).Nodup ∧ act = (Work.pipeline b g).activity) ∨
        ∃ goal, act = .inspect b goal) := by
  obtain ⟨op, hop, a, hf, rfl⟩ :=
    he.store.exists_files_of_none hs.world.wellFormed hnone hb
  have hsame : ∀ {p v}, o'.view? a.id p = some v → v.asset = b := fun hv =>
    Option.some.inj ((view?_eq_some_iff.mp hv).1.symm.trans hb)
  cases hh with
  | obeyed h =>
    cases h with
    | nothing => cases hop
    | changes _ hfiles =>
      rw [List.mem_singleton.mp hop, hfiles] at hf
      cases hf
  | begun h _ hwork =>
    cases h with
    | changes _ hfiles =>
      rw [List.mem_singleton.mp hop, hfiles] at hf
      cases hf
    | @creates _ _ g _ hfiles _ hnames =>
      rw [List.mem_singleton.mp hop, hfiles] at hf
      cases hf
      obtain ⟨hnew, hw, hv⟩ := view_of_files hs he hd hfiles (Work.subject?_pipeline _ g) hwork
      obtain rfl := hsame hv
      exact ⟨_, _, hnew, hw, hv, Or.inl ⟨g, hnames, rfl⟩⟩
  | reported | idled => cases hop
  | stepped _ hm hwork =>
    obtain ⟨table, goal, _, rfl, rfl⟩ := hm.files hs.world.wellFormed hop hf
    obtain ⟨hnew, hw, hv⟩ := view_of_files hs he hd rfl rfl hwork
    obtain rfl := hsame hv
    exact ⟨_, _, hnew, hw, hv, Or.inr ⟨goal, rfl⟩⟩

/-- An asset that appears is at the first stage of a pipeline. -/
theorem staged_of_filed {e : Event} {ops : List Store.Operation} (hs : o.Sound)
    (he : o.world.Evolves ops o'.world) (hd : o'.world.ids.Distinct) (hh : o.Handles e ops o')
    {b : Asset} (hnone : o.world.store.assets.get? x = none)
    (hb : o'.world.store.assets.get? x = some b) : ∃ p jobs, o'.Staged x p jobs := by
  obtain ⟨p, act, hnew, hw, hv, ⟨g, hnames, rfl⟩ | ⟨goal, rfl⟩⟩ :=
    view_of_filed hs he hd hh hnone hb
  · exact ⟨p, g.order, .of_view (names_order_nodup hnames) hw hv (stage_pipeline hnew g)
      fun _ _ ht => by cases ht⟩
  · exact ⟨p, [], .of_view List.nodup_nil hw hv (.inspecting rfl hnew.expectedTasks)
      fun _ _ ht => by cases ht⟩

/-- Every asset of a run is at a stage of a pipeline. -/
theorem exists_staged {settings : Settings} {now : Timestamp} {ids : IdSupply} {es : List Event}
    (hd : ((initial settings now ids).after es).world.ids.Distinct) {a : Asset}
    (ha : ((initial settings now ids).after es).world.store.assets.get? x = some a) :
    ∃ p jobs, ((initial settings now ids).after es).Staged x p jobs := by
  suffices h : ∀ x a, ((initial settings now ids).after es).world.store.assets.get? x = some a →
      ∃ p jobs, ((initial settings now ids).after es).Staged x p jobs from h x a ha
  refine after_induction (p := fun o => ∀ x a, o.world.store.assets.get? x = some a →
    ∃ p jobs, o.Staged x p jobs) (initial_sound settings now ids) hd ?_ ?_
  · intro x a ha
    cases ha
  · intro o e hs hd hall x b hb
    cases ha : o.world.store.assets.get? x with
    | some a =>
      obtain ⟨p, jobs, hstaged⟩ := hall x a ha
      have hd₁ : (o.after [e]).world.ids.Distinct := hd
      exact ⟨p, jobs, hstaged.after hs ha hd₁⟩
    | none =>
      obtain ⟨ops, he, hh⟩ := handle_cases hs e hd
      exact staged_of_filed hs he hd hh ha hb

/-! ## The pipeline of a request -/

/-- A piece of work tells the asset and the order of the jobs. -/
theorem pipeline_inj {a b : Asset} {g h : JobGraph} (he : Work.pipeline a g = .pipeline b h) :
    a = b ∧ g.order = h.order := by
  have hact : Activity.ofGraph a g .pipeline = .ofGraph b h .pipeline := congrArg Work.activity he
  unfold Activity.ofGraph at hact
  split at hact
  · next hg =>
    split at hact
    · next hh =>
      cases hact
      exact ⟨rfl, (g.order_of_isEmpty hg).trans (h.order_of_isEmpty hh).symm⟩
    · cases hact
  · split at hact
    · cases hact
    · injection hact with ha horder
      exact ⟨ha, horder⟩

/-- The states before and after an event in the middle of a run. -/
theorem sound_at {settings : Settings} {now : Timestamp} {ids : IdSupply} {es es' : List Event}
    {e : Event} (ho : o = (initial settings now ids).after es)
    (hd : ((o.handle e).after es').world.ids.Distinct) :
    o.Sound ∧ (o.handle e).world.ids.Distinct ∧ (o.handle e).Sound := by
  have hd' := (after_extends (o.handle e) es').distinct hd
  have hs : o.Sound := by
    have hd₀ := (o.handle_extends e).distinct hd'
    rw [ho] at hd₀ ⊢
    exact (initial_sound settings now ids).after hd₀
  exact ⟨hs, hd', hs.handle e hd'⟩

/-- A request that is answered with a pipeline files the asset, and the pipeline begins. -/
theorem staged_of_answer (hs : o.Sound) {c : Command} {a : Asset} {g : JobGraph}
    (hanswer : (o.request c.flow).1 = .ok (some (.pipeline a g)))
    (hd : (o.handle (.command c)).world.ids.Distinct) :
    a.IsNew ∧ (o.handle (.command c)).Staged a.id o.background.started g.order ∧
      (o.handle (.command c)).view? a.id o.background.started =
        some ⟨a, [], some (Work.pipeline a g).activity⟩ := by
  obtain ⟨ops, he, hh⟩ := handle_cases hs (.command c) hd
  generalize o.handle (.command c) = o' at hd he hh
  cases hh with
  | idled hcommand => exact absurd rfl (hcommand c)
  | obeyed _ hnone =>
    rw [hanswer] at hnone
    cases hnone
  | begun h hwork? hwork =>
    rw [hanswer] at hwork?
    cases hwork?
    rcases h.work with ⟨actions, hact⟩ | ⟨op, b, g', rfl, hf, _, hnames, hpipeline⟩
    · have hsubject := Work.subject?_pipeline a g
      rw [hact] at hsubject
      cases hsubject
    · obtain ⟨rfl, horder⟩ := pipeline_inj hpipeline
      rw [hpipeline] at hwork
      have hstaged := staged_of_pipeline hs he hd hf hnames hwork
      obtain ⟨hnew, _, hv⟩ := view_of_files hs he hd hf (Work.subject?_pipeline a g') hwork
      rw [horder, hpipeline]
      exact ⟨hnew, hstaged, hv⟩

/-- How many jobs are left to be submitted. -/
def jobsLeft? (o : Orchestrator) (p : Nat) : Option Nat :=
  (o.workAt p).bind fun
    | .submit _ jobs _ _ => some jobs.length
    | _ => none

/-- Work that begins with submissions is the pipeline of a new asset with jobs. -/
theorem exists_answer (hs : o.Sound) {c : Command} {n : Nat}
    (hd : (o.handle (.command c)).world.ids.Distinct)
    (h : (o.handle (.command c)).jobsLeft? o.background.started = some n) :
    ∃ a g, (o.request c.flow).1 = .ok (some (.pipeline a g)) ∧ g.isEmpty = false ∧ g.size = n := by
  obtain ⟨ops, _, hh⟩ := handle_cases hs (.command c) hd
  generalize o.handle (.command c) = o' at h hh
  obtain ⟨act, hact, hjobs⟩ := Option.bind_eq_some_iff.mp h
  cases hh with
  | idled hcommand => exact absurd rfl (hcommand c)
  | obeyed _ _ hwork =>
    rw [hwork, hs.workAt_started] at hact
    cases hact
  | begun hobeys hanswer hwork =>
    rw [hwork, if_pos rfl] at hact
    cases hact
    rcases hobeys.work with ⟨actions, hact⟩ | ⟨op, a, g, _, _, _, _, rfl⟩
    · rw [hact] at hjobs
      cases hjobs
    · have hact : (Work.pipeline a g).activity = Activity.ofGraph a g .pipeline := rfl
      rw [hact, Activity.ofGraph] at hjobs
      cases hempty : g.isEmpty with
      | true =>
        rw [if_pos hempty] at hjobs
        cases hjobs
      | false =>
        rw [if_neg (by rw [hempty]; decide)] at hjobs
        cases hjobs
        exact ⟨a, g, hanswer, hempty, g.length_order.symm⟩

end Orchestrator

end GeoAssets
