import GeoAssets.Proofs.Pipeline.Registration
import GeoAssets.Proofs.Run.ExportTargets

/-!
# What work there is

The pipelines of all assets submit jobs, but for dynamic tile caches, which take none: these are
looked at as soon as they are filed. So what a piece of work is about says much about what it does
(`Activity.IsUsual`), in every state of every run.
-/

namespace GeoAssets

/-- What work of each kind is about, and what it leads to: jobs are submitted for all assets but
dynamic tile caches, and only these are decided over without tasks. -/
def Activity.IsUsual : Activity → Prop
  | .submit asset _ _ goal => asset.type ≠ .dynamicVectorTileCache ∧ goal = some .pipeline
  | .expect _ _ goal | .evaluate _ goal => goal = .pipeline
  | .inspect asset _ => asset.type = .dynamicVectorTileCache
  | .settle asset outcome _ =>
    asset.type = .dynamicVectorTileCache ∧ outcome.registersTileCache = false
  | .register _ goal => ∃ answer, goal = .answer answer
  | .abandon .. | .receive .. | .record .. | .tearDown .. => True

/-! ## Plans -/

/-- A source takes at least the job that creates its table. -/
theorem CreationOptions.IsTableSource.jobs_ne_nil {b : Plan.Brief} {options : CreationOptions}
    {jobs : List Job} (h : options.IsTableSource) (hjobs : Plan.jobs b options = .ok jobs) :
    jobs ≠ [] := by
  rcases h with ⟨s, rfl⟩ | ⟨s, rfl⟩
  · obtain ⟨_, _, hjobs⟩ := bind_eq_ok_iff.mp hjobs
    cases hjobs
    exact List.cons_ne_nil _ _
  · obtain ⟨_, _, hjobs⟩ := bind_eq_ok_iff.mp hjobs
    cases hjobs
    exact List.cons_ne_nil _ _

/-- Dynamic tile caches take no jobs, and all other assets do. -/
theorem Asset.IsPlanned.isEmpty_iff {settings : Settings} {a : Asset} (h : a.IsPlanned settings)
    {b : Plan.Brief} (hb : b.asset = a) {g : JobGraph} (hg : Plan.build b = .ok g) :
    g.isEmpty = true ↔ a.type = .dynamicVectorTileCache := by
  obtain ⟨options, hoptions, hjobs⟩ := Plan.jobs_of_build hg
  rw [hb] at hoptions
  rw [JobGraph.isEmpty, List.isEmpty_iff]
  cases h.lies with
  | table htype _ ho hsource =>
    cases hoptions.symm.trans ho
    refine iff_of_false (hsource.jobs_ne_nil hjobs) ?_
    rcases AssetType.eq_of_isDatabase htype with h | h <;> rw [h] <;> decide
  | dynamicTiles htype _ ho =>
    cases hoptions.symm.trans ho
    exact iff_of_true (Except.ok.inj hjobs).symm htype
  | staticTiles htype _ ho =>
    cases hoptions.symm.trans ho
    obtain ⟨_, _, hjobs⟩ := bind_eq_ok_iff.mp hjobs
    rw [← Except.ok.inj hjobs, htype]
    exact iff_of_false (List.cons_ne_nil _ _) (by decide)
  | file htype _ ho =>
    cases hoptions.symm.trans ho
    obtain ⟨_, _, hjobs⟩ := bind_eq_ok_iff.mp hjobs
    obtain ⟨_, _, hjobs⟩ := bind_eq_ok_iff.mp hjobs
    rw [← Except.ok.inj hjobs]
    refine iff_of_false (List.cons_ne_nil _ _) ?_
    rcases AssetType.eq_of_fileExtension? htype with ⟨h, _⟩ | ⟨h, _⟩ <;> rw [h] <;> decide

/-- The pipeline of a planned asset is usual work. -/
theorem Work.isUsual_pipeline {a : Asset} {g : JobGraph}
    (h : g.isEmpty = true ↔ a.type = .dynamicVectorTileCache) :
    (Work.pipeline a g).activity.IsUsual := by
  show (Activity.ofGraph a g .pipeline).IsUsual
  unfold Activity.ofGraph
  split
  · next hempty => exact h.mp hempty
  · next hjobs => exact ⟨fun htype => hjobs (h.mpr htype), rfl⟩

namespace Request

variable {settings : Settings} {now : Timestamp} {id : AssetId} {key : VersionKey} {json : Json}
  {a : Asset} {g : JobGraph}

theorem isUsual_of_planSource {sourceType : String}
    (h : planSource settings now id key sourceType json = .ok (a, g)) :
    (Work.pipeline a g).activity.IsUsual := by
  have hplanned := planSource_isPlanned h
  simp only [planSource, bind_eq_ok_iff] at h
  obtain ⟨_, _, a', _, g', hg, h⟩ := h
  cases h
  exact Work.isUsual_pipeline (hplanned.isEmpty_iff rfl hg)

theorem isUsual_of_planDerived {type : AssetType} {siblings : List Asset}
    (h : planDerived settings now id key type json siblings = .ok (a, g)) :
    (Work.pipeline a g).activity.IsUsual := by
  have hplanned := planDerived_isPlanned h
  simp only [planDerived, bind_eq_ok_iff] at h
  obtain ⟨_, _, _, _, g', hg, h⟩ := h
  cases h
  exact Work.isUsual_pipeline (hplanned.isEmpty_iff rfl hg)

end Request

/-! ## Requests -/

namespace Flow.Gives

variable {α β : Type} {p : β → Prop}

theorem check_bind {r : Except Error α} {g : α → Flow β} (h : ∀ a, r = .ok a → Gives (g a) p) :
    Gives (Flow.check r >>= g) p := by
  intro w b w' hb
  rcases Flow.run_check_bind_cases hb with ⟨a, hr, hb⟩ | ⟨_, _, he, _⟩
  · exact h a hr w b w' hb
  · cases he

theorem map_of {f : Flow α} {g : α → β} (h : Gives f fun a => p (g a)) : Gives (g <$> f) p := by
  intro w b w' hb
  rcases Flow.run_map_cases hb with ⟨a, hf, hb⟩ | ⟨_, _, he⟩
  · cases hb
    exact h w a w' hf
  · cases he

end Flow.Gives

open Flow.Gives in
/-- The work that goes on after a request is usual. -/
theorem Command.flow_gives (c : Command) :
    c.flow.Gives fun work? => ∀ work, work? = some work → work.activity.IsUsual := by
  have hnone : ∀ {α : Type} {f : Flow α}, Flow.Gives ((fun _ => none) <$> f)
      fun work? : Option Work => ∀ work, work? = some work → work.activity.IsUsual :=
    map fun _ _ h => by cases h
  have hsome : ∀ {α : Type} {f : Flow (α × Work)}, (f.Gives fun x => x.2.activity.IsUsual) →
      Flow.Gives ((fun answer => some answer.2) <$> f)
        fun work? : Option Work => ∀ work, work? = some work → work.activity.IsUsual :=
    fun hf => map_of fun w x w' hx work hwork => by
      cases hwork
      exact hf w x w' hx
  cases c with
  | createVersion q =>
    refine hsome (bind fun _ => bind fun _ => bind fun _ => check_bind fun ⟨a, g⟩ hplan =>
      bind fun _ => ?_)
    dsimp only
    split
    · exact bind fun _ => pure (Request.isUsual_of_planSource hplan)
    · exact pure (Request.isUsual_of_planSource hplan)
  | createDefaultAsset =>
    exact hsome (bind fun _ => bind fun _ => bind fun _ => bind fun _ =>
      check_bind fun ⟨a, g⟩ hplan => bind fun _ => pure (Request.isUsual_of_planSource hplan))
  | createAsset =>
    exact hsome (bind fun _ => bind fun _ => bind fun _ => bind fun _ => bind fun _ =>
      check_bind fun ⟨a, g⟩ hplan => bind fun _ => pure (Request.isUsual_of_planDerived hplan))
  | deleteVersion => exact hsome (bind fun _ => bind fun _ => pure trivial)
  | deleteAsset =>
    exact hsome (bind fun _ => bind fun _ => bind fun _ => bind fun _ => bind fun _ => pure trivial)
  | _ => exact hnone

/-! ## Steps -/

namespace Activity

variable {w w' : World} {a rest : Activity} {r : Except Error Next}

/-- Once a tile cache was filed it is looked at. -/
theorem rest_of_register {table : Asset} {answer : Answer}
    (hr : (register table (.answer answer)).step.run w = (r, w'))
    (hrest : Next.rest? r = some rest) :
    rest = .inspect (w.tileCacheOf table) (.answer answer) := by
  cases hcreate : w.store.createAsset (w.tileCacheOf table) with
  | ok s =>
    rw [register_step_filed _ hcreate] at hr
    cases hr
    exact (Option.some.inj hrest).symm
  | error e =>
    rw [register_step_unfiled answer hcreate] at hr
    obtain ⟨rfl, _⟩ := Prod.mk.inj hr
    cases hrest

theorem isUsual_of_registers {rest? : Option Activity} (h : Registers rest?)
    (hrest : rest? = some rest) : rest.IsUsual := by
  obtain ⟨_, answer, rfl⟩ := h rest hrest
  exact ⟨answer, rfl⟩

/-- What is left of usual work is usual. -/
theorem IsUsual.step (h : a.IsUsual) (hs : a.Suits w.store) (hw : w.Sound)
    (hr : a.step.run w = (r, w')) (hd : w'.ids.Distinct) (hrest : Next.rest? r = some rest) :
    rest.IsUsual := by
  obtain ⟨ops, hm, _⟩ := step_moves hw hs hr hd
  rw [hrest] at hm
  generalize hrest' : some rest = rest? at hm
  cases hm with
  | submitted | expected =>
    cases hrest'
    exact h
  | @inspected asset _ =>
    cases hrest'
    have htype : asset.type = .dynamicVectorTileCache := h
    refine ⟨htype, ?_⟩
    rw [inspectedOutcome, if_pos htype]
    exact (Outcome.ofTileCache_adds_nothing htype _).2
  | counted =>
    cases hrest'
    exact Option.some.inj h.2
  | refused | received =>
    cases hrest'
    trivial
  | registered =>
    obtain ⟨answer, rfl⟩ := h
    rw [rest_of_register hr hrest]
    rfl
  | evaluated _ hregisters | settled _ hregisters | recorded _ _ hregisters =>
    exact isUsual_of_registers hregisters hrest'.symm
  | tornDown htears =>
    obtain ⟨_, _, rfl⟩ := htears rest hrest'.symm
    trivial
  | uncounted | abandoned | vanished | rejected | lost | unregistered => cases hrest'

end Activity

/-! ## Runs -/

namespace Orchestrator

variable {o : Orchestrator}

/-- All work in the background is usual. -/
def HasUsualWork (o : Orchestrator) : Prop :=
  ∀ n a, o.workAt n = some a → a.IsUsual

theorem HasUsualWork.advance (ho : o.HasUsualWork) (hs : o.Sound) (n : Nat)
    (hd : (o.advance n).world.ids.Distinct) : (o.advance n).HasUsualWork := by
  rcases o.advance_cases n with ⟨a, ha, hworld, hwork, _⟩ | ⟨_, hwork, _⟩
  swap
  · intro m b hb
    exact ho m b ((hwork m).symm.trans hb)
  obtain ⟨r, hr, hwork', _⟩ := takeStep_cases ha
  intro m b hb
  rw [hwork, hwork'] at hb
  split at hb
  · rw [hworld] at hd
    exact (ho n a ha).step (hs.suits n a ha) hs.world hr hd hb
  · exact ho m b hb

theorem HasUsualWork.handle (ho : o.HasUsualWork) (hs : o.Sound) (e : Event)
    (hd : (o.handle e).world.ids.Distinct) : (o.handle e).HasUsualWork := by
  by_cases hadvance : ∃ n, e = .advance n
  · obtain ⟨n, rfl⟩ := hadvance
    exact ho.advance hs n hd
  obtain ⟨ops, _, hh⟩ := handle_cases hs e hd
  generalize o.handle e = o' at hh ⊢
  intro m b hb
  cases hh with
  | obeyed _ _ hwork | idled _ _ hwork => exact ho m b ((hwork m).symm.trans hb)
  | @begun c _ work _ _ hanswer hwork =>
    rw [hwork] at hb
    split at hb
    · cases hb
      exact c.flow_gives o.world _ _ (Prod.ext hanswer rfl) work rfl
    · exact ho m b hb
  | reported hwork =>
    rw [hwork] at hb
    split at hb
    · cases hb
      trivial
    · exact ho m b hb
  | stepped => exact absurd ⟨_, rfl⟩ hadvance

/-- In every state of every run all work is usual. -/
theorem hasUsualWork_after {settings : Settings} {now : Timestamp} {ids : IdSupply}
    {es : List Event} (hd : ((initial settings now ids).after es).world.ids.Distinct) :
    ((initial settings now ids).after es).HasUsualWork :=
  after_induction (initial_sound settings now ids) hd (fun _ _ h => by cases h)
    fun _ e hs hd ho => ho.handle hs e hd

end Orchestrator

end GeoAssets
