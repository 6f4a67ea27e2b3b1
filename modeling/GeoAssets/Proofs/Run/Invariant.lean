import GeoAssets.Proofs.Run.Ids

/-!
# States of runs are sound

Every event keeps a state sound, as long as the ids that are drawn are distinct. So every state of a
run from the beginning is sound.
-/

namespace GeoAssets

namespace Activity

variable {w w' : World} {a rest : Activity} {ops : List Store.Operation}

/-! ## What activities are about -/

/-- A step goes on with the same asset, or with one that it filed. -/
theorem Moves.copy? (hm : a.Moves w ops (some rest)) {c : Asset} (hc : rest.copy? = some c) :
    a.copy? = some c ∨ ops = [.createAsset c] := by
  generalize hr : some rest = rest? at hm
  cases hm with
  | submitted => cases hr; exact Or.inl hc
  | refused => cases hr; exact Or.inl hc
  | counted => cases hr; exact Or.inl hc
  | expected => cases hr; cases hc
  | inspected => cases hr; exact Or.inl hc
  | received => cases hr; cases hc
  | evaluated _ hrest | settled _ hrest | recorded _ _ hrest =>
    obtain ⟨_, _, rfl⟩ := hrest rest hr.symm
    cases hc
  | registered =>
    cases hr
    cases hc
    exact Or.inr rfl
  | tornDown h =>
    obtain ⟨_, _, rfl⟩ := h rest hr.symm
    cases hc
  | uncounted | abandoned | vanished | rejected | lost | unregistered => cases hr

theorem Moves.subject? (hm : a.Moves w ops (some rest)) {x : AssetId}
    (hx : rest.subject? = some x) :
    a.subject? = some x ∨ ∃ c, rest.copy? = some c ∧ c.id = x ∧ ops = [.createAsset c] := by
  cases hc : rest.copy? with
  | some c =>
    have hid : c.id = x := by
      rw [subject?_of_copy? hc] at hx
      cases hx
      rfl
    rcases hm.copy? hc with ha | hops
    · left
      rw [subject?_of_copy? ha, hid]
    · right
      exact ⟨c, rfl, hid, hops⟩
  | none =>
    left
    generalize hr : some rest = rest? at hm
    cases hm with
    | expected => cases hr; cases hx; rfl
    | evaluated _ hrest | settled _ hrest | recorded _ _ hrest =>
      obtain ⟨_, _, rfl⟩ := hrest rest hr.symm
      cases hx
    | tornDown h =>
      obtain ⟨_, _, rfl⟩ := h rest hr.symm
      cases hx
    | received => cases hr; cases hx
    | submitted | refused | counted | inspected | registered => cases hr; cases hc
    | uncounted | abandoned | vanished | rejected | lost | unregistered => cases hr

/-! ## What activities know -/

theorem suits_of_copy? {s : Store} (h : a.copy? = none) : a.Suits s where
  copy := fun c hc => by
    rw [h] at hc
    cases hc
  outcome := by
    rintro asset o goal rfl
    cases h

/-- An activity that nobody touches goes on knowing its asset. -/
theorem Suits.evolve (hs : a.Suits w.store) (hw : w.Sound) (he : w.Evolves ops w')
    (hd : w'.ids.Distinct) (hx : ∀ x, a.subject? = some x → w.ids.HasDrawnAsset x) :
    a.Suits w'.store where
  outcome := hs.outcome
  copy := fun c hc b hb => by
    cases hy : w.store.assets.get? c.id with
    | some y =>
      exact (hs.copy c hc y hy).trans (he.asset_of_some hd hw hy hb).2.1
    | none =>
      exact absurd (hx c.id (subject?_of_copy? hc)) (he.not_hasDrawnAsset hd hw hy hb)

/-- A filed asset is known as it was filed. -/
theorem becomes_of_files (hw : w.Sound) {op : Store.Operation} (he : w.Evolves [op] w')
    (hd : w'.ids.Distinct) {c : Asset} (hf : op.files? = some c) {b : Asset}
    (hb : w'.store.assets.get? c.id = some b) : c.Becomes b := by
  have hnone : w.store.assets.get? c.id = none := by
    cases hy : w.store.assets.get? c.id with
    | none => rfl
    | some y =>
      exact absurd (hw.asset _ y hy)
        (he.ids.not_hasDrawnAsset hd (he.files op List.mem_cons_self c hf))
  obtain ⟨hf', _, _⟩ := he.store.asset_of_single hw.wellFormed hnone hb
  rw [hf] at hf'
  cases hf'
  exact .refl c

theorem inspectedOutcome_fits (w : World) (asset : Asset) :
    (inspectedOutcome w asset).Fits asset := by
  unfold inspectedOutcome
  split
  · exact Outcome.ofTileCache_fits _ _ _
  · exact Outcome.saved_fits _ _

/-- What is left of an activity knows its asset. -/
theorem Moves.suits (hm : a.Moves w ops (some rest)) (hs : a.Suits w.store) (hw : w.Sound)
    (he : w.Evolves ops w') (hd : w'.ids.Distinct)
    (hx : ∀ x, a.subject? = some x → w.ids.HasDrawnAsset x) : rest.Suits w'.store where
  copy := fun c hc b hb => by
    rcases hm.copy? hc with ha | rfl
    · exact (hs.evolve hw he hd hx).copy c ha b hb
    · exact becomes_of_files hw he hd rfl hb
  outcome := by
    rintro asset o goal rfl
    generalize hr : some (Activity.settle asset o goal) = rest? at hm
    cases hm with
    | inspected =>
      cases hr
      exact inspectedOutcome_fits w asset
    | evaluated _ hrest | settled _ hrest | recorded _ _ hrest =>
      obtain ⟨_, _, h⟩ := hrest _ hr.symm
      cases h
    | tornDown h =>
      obtain ⟨_, _, h⟩ := h _ hr.symm
      cases h
    | submitted | refused | counted | expected | received | registered => cases hr
    | uncounted | abandoned | vanished | rejected | lost | unregistered => cases hr

end Activity

/-! ## New work -/

theorem Work.copy?_pipeline (a : Asset) (g : JobGraph) :
    (Work.pipeline a g).activity.copy? = some a := by
  unfold Work.pipeline Activity.ofGraph
  dsimp only
  split <;> rfl

theorem Work.subject?_pipeline (a : Asset) (g : JobGraph) :
    (Work.pipeline a g).activity.subject? = some a.id :=
  Activity.subject?_of_copy? (copy?_pipeline a g)

/-- The work of a request is about no asset, or about the asset that was filed. -/
theorem Command.Obeys.work {ops : List Store.Operation} {work : Work}
    (h : Command.Obeys ops (some work)) :
    (∃ actions, work.activity = .tearDown actions none) ∨
      ∃ op a g, ops = [op] ∧ op.files? = some a ∧ a.IsNew ∧ (g.jobs.map (·.name)).Nodup ∧
        work = .pipeline a g := by
  cases h with
  | changes _ _ hwork => exact Or.inl (hwork work rfl)
  | creates _ hfiles hnew hnames => exact Or.inr ⟨_, _, _, rfl, hfiles, hnew, hnames, rfl⟩

/-- The asset that new work is about has been drawn. -/
theorem Command.Obeys.hasDrawnAsset {w w' : World} {ops : List Store.Operation} {work : Work}
    (h : Command.Obeys ops (some work)) (he : w.Evolves ops w') {x : AssetId}
    (hx : work.activity.subject? = some x) : w'.ids.HasDrawnAsset x := by
  rcases h.work with ⟨actions, hact⟩ | ⟨op, a, g, rfl, hf, _, _, rfl⟩
  · rw [hact] at hx
    cases hx
  · rw [Work.subject?_pipeline] at hx
    cases hx
    exact he.ids.hasDrawnAsset_of_draws (he.files op List.mem_cons_self a hf)

/-- New work knows its asset. -/
theorem Command.Obeys.suits {w w' : World} {ops : List Store.Operation} {work : Work}
    (h : Command.Obeys ops (some work)) (hw : w.Sound) (he : w.Evolves ops w')
    (hd : w'.ids.Distinct) : work.activity.Suits w'.store := by
  rcases h.work with ⟨actions, hact⟩ | ⟨op, a, g, rfl, hf, _, _, rfl⟩
  · rw [hact]
    exact Activity.suits_of_copy? rfl
  · constructor
    · intro c hc b hb
      rw [Work.copy?_pipeline] at hc
      cases hc
      exact Activity.becomes_of_files hw he hd hf hb
    · intro asset q goal hact
      unfold Work.pipeline Activity.ofGraph at hact
      dsimp only at hact
      split at hact <;> cases hact

/-! ## Events -/

namespace Orchestrator

/-- A state stays sound when one piece changes, if what is left of the piece suits the state. -/
theorem Sound.of_piece {o o' : Orchestrator} (hs : o.Sound) {ops : List Store.Operation}
    (he : o.world.Evolves ops o'.world) (hd : o'.world.ids.Distinct) {n : Nat}
    {rest? : Option Activity} (hwork : ∀ m, o'.workAt m = if m = n then rest? else o.workAt m)
    (hstarted : o.background.started ≤ o'.background.started)
    (hn : ∀ a, rest? = some a → n < o'.background.started)
    (hsubject : ∀ a x, rest? = some a → a.subject? = some x → o'.world.ids.HasDrawnAsset x)
    (hsuits : ∀ a, rest? = some a → a.Suits o'.world.store) : o'.Sound := by
  refine ⟨hs.world.evolve he, ?_, ?_, ?_⟩
  · intro m a ha
    rw [hwork] at ha
    split at ha
    · next hm =>
      rw [hm]
      exact hn a ha
    · exact Nat.lt_of_lt_of_le (hs.started m a ha) hstarted
  · intro m a x ha hx
    rw [hwork] at ha
    split at ha
    · exact hsubject a x ha hx
    · exact he.ids.hasDrawnAsset (hs.subject m a x ha hx)
  · intro m a ha
    rw [hwork] at ha
    split at ha
    · exact hsuits a ha
    · exact (hs.suits m a ha).evolve hs.world he hd (hs.subject m a · ha)

/-- Every event keeps a state sound. -/
theorem Sound.handle {o : Orchestrator} (hs : o.Sound) (e : Event)
    (hd : (o.handle e).world.ids.Distinct) : (o.handle e).Sound := by
  obtain ⟨ops, he, hh⟩ := handle_cases hs e hd
  generalize o.handle e = o' at hd he hh
  cases hh with
  | obeyed _ _ hwork hstarted | idled _ _ hwork hstarted =>
    refine hs.of_piece he hd (hs.workAt_of_same hwork) (Nat.le_of_eq hstarted.symm) ?_ ?_ ?_
    · intro a ha
      cases ha
    · intro a x ha
      cases ha
    · intro a ha
      cases ha
  | begun hobeys _ hwork hstarted =>
    refine hs.of_piece he hd hwork (by omega) (fun _ _ => by omega) ?_ ?_
    · intro a x ha hx
      cases ha
      exact hobeys.hasDrawnAsset he hx
    · intro a ha
      cases ha
      exact hobeys.suits hs.world he hd
  | reported hwork hstarted =>
    refine hs.of_piece he hd hwork (by omega) (fun _ _ => by omega) ?_ ?_
    · intro a x ha hx
      cases ha
      cases hx
    · intro a ha
      cases ha
      exact Activity.suits_of_copy? rfl
  | @stepped n a ops rest? _ ha hm hwork hstarted =>
    have hn := hs.started n a ha
    refine hs.of_piece he hd hwork (Nat.le_of_eq hstarted.symm) (fun _ _ => by omega) ?_ ?_
    · intro b x hb hx
      subst hb
      rcases hm.subject? hx with hx | ⟨c, _, rfl, rfl⟩
      · exact he.ids.hasDrawnAsset (hs.subject n a x ha hx)
      · exact he.ids.hasDrawnAsset_of_draws (he.files _ List.mem_cons_self c rfl)
    · intro b hb
      subst hb
      exact hm.suits (hs.suits n a ha) hs.world he hd (hs.subject n a · ha)

/-- What every event keeps holds at the end of a run. -/
theorem after_induction {p : Orchestrator → Prop} {o : Orchestrator} {es : List Event}
    (hs : o.Sound) (hd : (o.after es).world.ids.Distinct) (h₀ : p o)
    (hp : ∀ o e, o.Sound → (o.handle e).world.ids.Distinct → p o → p (o.handle e)) :
    p (o.after es) := by
  induction es generalizing o with
  | nil => exact h₀
  | cons e es ih =>
    rw [after_cons] at hd ⊢
    have hd' := (after_extends (o.handle e) es).distinct hd
    exact ih (hs.handle e hd') hd (hp o e hs hd' h₀)

theorem Sound.after {o : Orchestrator} (hs : o.Sound) {es : List Event}
    (hd : (o.after es).world.ids.Distinct) : (o.after es).Sound :=
  after_induction hs hd hs fun _ e hs hd _ => hs.handle e hd

/-! ## Assets in runs -/

/-- An asset that was removed is not filed again. -/
theorem eq_none_after {o : Orchestrator} (hs : o.Sound) {es : List Event}
    (hd : (o.after es).world.ids.Distinct) {x : AssetId} (hx : o.world.ids.HasDrawnAsset x)
    (hnone : o.world.store.assets.get? x = none) :
    (o.after es).world.store.assets.get? x = none := by
  suffices h : (o.after es).world.ids.HasDrawnAsset x ∧
      (o.after es).world.store.assets.get? x = none from h.2
  refine after_induction (p := fun o => o.world.ids.HasDrawnAsset x ∧
    o.world.store.assets.get? x = none) hs hd ⟨hx, hnone⟩ ?_
  rintro o e hs hd ⟨hx, hnone⟩
  obtain ⟨ops, he, _⟩ := handle_cases hs e hd
  refine ⟨he.ids.hasDrawnAsset hx, ?_⟩
  cases hb : (o.handle e).world.store.assets.get? x with
  | none => rfl
  | some b => exact absurd hx (he.not_hasDrawnAsset hd hs.world hnone hb)

/-- A task that was removed is not recorded again. -/
theorem task_eq_none_after {o : Orchestrator} (hs : o.Sound) {es : List Event}
    (hd : (o.after es).world.ids.Distinct) {id : TaskId} (hid : o.world.ids.HasDrawnTask id)
    (hnone : o.world.store.tasks.get? id = none) :
    (o.after es).world.store.tasks.get? id = none := by
  suffices h : (o.after es).world.ids.HasDrawnTask id ∧
      (o.after es).world.store.tasks.get? id = none from h.2
  refine after_induction (p := fun o => o.world.ids.HasDrawnTask id ∧
    o.world.store.tasks.get? id = none) hs hd ⟨hid, hnone⟩ ?_
  rintro o e hs hd ⟨hid, hnone⟩
  obtain ⟨ops, he, _⟩ := handle_cases hs e hd
  refine ⟨he.ids.hasDrawnTask hid, ?_⟩
  cases ht : (o.handle e).world.store.tasks.get? id with
  | none => rfl
  | some t =>
    obtain ⟨op, hop, u, hrec, rfl⟩ :=
      he.store.exists_records_of_none hs.world.wellFormed hnone ht
    exact absurd hid (he.ids.not_hasDrawnTask hd (he.records op hop u hrec))

/-- An asset that is there at the end of a run was there ever since its id was drawn. -/
theorem exists_of_after {o : Orchestrator} (hs : o.Sound) {es : List Event}
    (hd : (o.after es).world.ids.Distinct) {x : AssetId} (hx : o.world.ids.HasDrawnAsset x)
    {b : Asset} (hb : (o.after es).world.store.assets.get? x = some b) :
    ∃ a, o.world.store.assets.get? x = some a := by
  cases ha : o.world.store.assets.get? x with
  | some a => exact ⟨a, rfl⟩
  | none =>
    rw [eq_none_after hs hd hx ha] at hb
    cases hb

/-- In a run an asset changes as it may; above all, a final status stays. -/
theorem becomes_after {o : Orchestrator} (hs : o.Sound) {es : List Event}
    (hd : (o.after es).world.ids.Distinct) {x : AssetId} {a b : Asset}
    (ha : o.world.store.assets.get? x = some a)
    (hb : (o.after es).world.store.assets.get? x = some b) : a.Becomes b := by
  induction es generalizing o a with
  | nil =>
    rw [after_nil, ha] at hb
    cases hb
    exact .refl _
  | cons e es ih =>
    rw [after_cons] at hd hb
    have hd' := (after_extends (o.handle e) es).distinct hd
    have hs' := hs.handle e hd'
    obtain ⟨ops, he, _⟩ := handle_cases hs e hd'
    have hdrawn := he.ids.hasDrawnAsset (hs.world.asset x a ha)
    obtain ⟨c, hc⟩ := exists_of_after hs' hd hdrawn hb
    exact (he.asset_of_some hd' hs.world ha hc).2.1.trans (ih hs' hd hc hb)

end Orchestrator

end GeoAssets
