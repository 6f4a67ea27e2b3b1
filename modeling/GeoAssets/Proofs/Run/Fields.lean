import GeoAssets.Proofs.Run.Saving
import Mathlib.Data.List.Induction

/-!
# Where fields come from

The fields of an asset change only in the step that settles it, and then they are the columns that
the database reports for its version at that moment (`Asset.Reads`). A new default asset has none.
So wherever a default asset has fields, they were read when it was settled
(`Orchestrator.ReadsColumns`).
-/

namespace GeoAssets

/-! ## Settling -/

/-- What becomes of the fields of an asset: they stay, or the asset is settled and its fields are
the columns that the database reports for its version. -/
inductive Asset.Reads (a : Asset) (d : Database) (b : Asset) : Prop where
  | kept (fields : b.metadata.fields = a.metadata.fields)
  | read {columns : List Column} (pending : a.status = .pending) (settled : b.status ≠ .pending)
    (reported : d.columns a.key.dataset a.key.version = .ok columns)
    (fields : b.metadata.fields = columns.map Field.ofColumn)

namespace World

variable {w : World} {c a b : Asset} {o : Outcome} {x y : AssetId}

/-- The columns are read for the asset as it was when the work on it began. -/
theorem reads_of_transition (hkey : c.key = a.key) (hpending : a.status = .pending)
    (hfinal : o.status.isTerminal = true) (log : List LogEntry) :
    a.Reads w.services.database
      { (o.transition c (w.fieldsFor c o)).applyAsset a with log := log } := by
  have hsettled : o.status ≠ .pending := by
    intro h
    rw [h] at hfinal
    cases hfinal
  cases hfields : w.fieldsFor c o with
  | none => exact .kept rfl
  | some fields =>
    unfold fieldsFor at hfields
    split at hfields
    · cases hcolumns : w.services.database.columns c.key.dataset c.key.version with
      | ok columns =>
        rw [hcolumns] at hfields
        cases hfields
        rw [hkey] at hcolumns
        exact .read hpending hsettled hcolumns rfl
      | error e =>
        rw [hcolumns] at hfields
        cases hfields
    · cases hfields

theorem reads_of_settle (hw : w.store.WellFormed) (ho : o.Fits c)
    (hcopy : ∀ b, w.store.assets.get? c.id = some b → c.Becomes b)
    (ha : w.store.assets.get? x = some a)
    (hb : (w.settle c o).2.store.assets.get? x = some b) : a.Reads w.services.database b := by
  obtain ⟨ops, hsettlement, he⟩ :=
    settle_cases hw ho (fun b hb => (hcopy b hb).isDefault) (Prod.eta (w.settle c o)).symm
  have hafter := he.store.asset_of_noRequest hw (hsettlement.isRequest hw) ha hb
  by_cases hx : x = c.id
  swap
  · rw [hsettlement.onAsset_of_ne hw hx] at hafter
    exact .kept (by rw [hafter])
  subst hx
  have hsettled := hsettlement.onAsset hw ha
  rw [← hafter] at hsettled
  cases hsettled with
  | final => exact .kept rfl
  | pending hpending =>
    rw [applied_of_settle (hw.asset_id _ _ ha) ha hpending] at hb
    cases hb
    exact reads_of_transition (by rw [(hcopy a ha).same]) hpending ho.status _

theorem reads_of_settleByTasks (hw : w.store.WellFormed) (ha : w.store.assets.get? y = some a)
    (hb : (w.settleByTasks x).2.store.assets.get? y = some b) : a.Reads w.services.database b := by
  by_cases hne : y = x
  swap
  · rw [settleByTasks_of_ne hw hne ha hb]
    exact .kept rfl
  subst hne
  unfold settleByTasks at hb
  rw [ha] at hb
  dsimp only at hb
  split at hb
  · next o hdecision =>
    refine reads_of_settle hw (Decision.fits_of_finish hdecision) (fun c hc => ?_) ha hb
    rw [hw.asset_id y a ha, ha] at hc
    cases hc
    exact .refl a
  all_goals
    rw [ha] at hb
    cases hb
    exact .kept rfl

end World

/-! ## Steps -/

/-- Fields are read only where an asset is settled. -/
theorem Activity.reads_of_step {w w' : World} {act : Activity} {r : Except Error Next}
    {x : AssetId} {a b : Asset} (hw : w.Sound) (hs : act.Suits w.store)
    (hr : act.step.run w = (r, w')) (hd : w'.ids.Distinct) (ha : w.store.assets.get? x = some a)
    (hb : w'.store.assets.get? x = some b) : a.Reads w.services.database b := by
  obtain ⟨ops, hm, he⟩ := step_moves hw hs hr hd
  obtain ⟨r₀, hp, _⟩ := step_cases hr
  have hkept : (∀ op ∈ ops, op.settlements = []) → a.Reads w.services.database b := fun hno => by
    obtain ⟨n, log, hsame⟩ := Store.Operation.exists_foldl_onAsset_eq hno x a
    exact .kept (by rw [(he.asset_of_some hd hw ha hb).1, hsame])
  generalize Next.rest? r = rest? at hm
  cases hm with
  | evaluated =>
    rw [evaluate_run] at hp
    obtain ⟨_, rfl⟩ := Prod.mk.inj hp
    exact World.reads_of_settleByTasks hw.wellFormed ha hb
  | recorded =>
    rcases record_run_cases hp with ⟨t, s, happend, hassets, _, rfl⟩ | ⟨_, _, rfl⟩
    · have hws := (Store.Performs.appendTaskLog happend).wellFormed hw.wellFormed
      rw [← hassets] at ha
      exact World.reads_of_settleByTasks (w := { w with store := s }) hws ha hb
    · rw [ha] at hb
      cases hb
      exact .kept rfl
  | @settled c o goal =>
    change (Next.follow goal <$> Flow.ofWorld (·.settle c o)).run w = (r₀, w') at hp
    obtain ⟨_, rfl⟩ := Prod.mk.inj hp
    exact World.reads_of_settle hw.wellFormed (hs.outcome c o goal rfl) (hs.copy c rfl) ha hb
  | @abandoned c job cause =>
    change (abandonNow c job cause).run w = (r₀, w') at hp
    unfold abandonNow at hp
    rw [Flow.run_ofWorld_bind, Flow.run_measure_bind] at hp
    obtain ⟨_, rfl⟩ := Prod.mk.inj hp
    exact World.reads_of_settle hw.wellFormed (Outcome.failed_fits c _) (hs.copy c rfl) ha hb
  | submitted | expected | inspected | registered =>
    refine hkept fun op hop => ?_
    rw [List.mem_singleton.mp hop]
    rfl
  | unregistered h =>
    refine hkept fun op hop => ?_
    rcases h with rfl | ⟨e, rfl⟩
    · cases hop
    · rw [List.mem_singleton.mp hop]
      rfl
  | refused | counted | uncounted | vanished | received | rejected | lost | tornDown =>
    exact hkept fun op hop => by cases hop

/-! ## Origins -/

/-- A new default asset has no fields. -/
theorem World.Plans.fields_of_isDefault {w : World} {b : Asset} (h : w.Plans b)
    (hdefault : b.isDefault = true) : b.metadata.fields = [] := by
  cases h with
  | source h =>
    simp only [planSource, Request.planSource, Request.defaultAsset, bind_eq_ok_iff] at h
    obtain ⟨_, _, _, ⟨_, _, _, _, ha⟩, _, _, h⟩ := h
    cases h
    cases ha
    rfl
  | derived h =>
    simp only [planDerived, Request.planDerived, bind_eq_ok_iff] at h
    obtain ⟨_, _, _, _, _, _, h⟩ := h
    cases h
    rfl
  | tileCache h =>
    cases h
    cases hdefault

namespace Orchestrator

variable {o : Orchestrator} {e : Event} {es : List Event} {x : AssetId} {k : VersionKey}
  {a b t : Asset} {columns : List Column}

/-! ## Events -/

/-- An event leaves the fields of an asset as they are, or it settles the asset and reads them. -/
theorem fields_of_handle (hs : o.Sound) (hd : (o.handle e).world.ids.Distinct)
    (ha : o.world.store.assets.get? x = some a)
    (hb : (o.handle e).world.store.assets.get? x = some b) :
    b.metadata.fields = a.metadata.fields ∨
      ∃ n columns, e = .advance n ∧ b ∈ o.settledBy e ∧ b.id = x ∧
        o.world.services.database.columns a.key.dataset a.key.version = .ok columns ∧
        b.metadata.fields = columns.map Field.ofColumn := by
  by_cases hadvance : ∃ n, e = .advance n
  · obtain ⟨n, rfl⟩ := hadvance
    rcases o.advance_self n with ⟨act, r, hact, hr, _⟩ | ⟨hworld, _⟩
    · cases Activity.reads_of_step hs.world (hs.suits n act hact) hr hd ha hb with
      | kept fields => exact Or.inl fields
      | read pending settled reported fields =>
        have hid := (hs.handle _ hd).world.wellFormed.asset_id x b hb
        refine Or.inr ⟨n, _, rfl, (mem_settledBy_iff (hs.handle _ hd)).mpr ?_, hid, reported,
          fields⟩
        rw [hid]
        exact ⟨hb, a, ha, by rw [pending]; exact settled.symm⟩
    · change (o.advance n).world.store.assets.get? x = some b at hb
      rw [hworld, ha] at hb
      cases hb
      exact Or.inl rfl
  · left
    obtain ⟨ops, he, hh⟩ := handle_cases hs e hd
    have hafter := (he.asset_of_some hd hs.world ha hb).1
    cases hh with
    | obeyed hobeys | begun hobeys => rw [hafter, hobeys.onAsset]
    | reported | idled => rw [hafter]; rfl
    | stepped => exact absurd ⟨_, rfl⟩ hadvance

/-! ## Runs -/

/-- In a run an asset of a version was settled while the database reported some columns for the
version. -/
def ReadsColumns (o : Orchestrator) (es : List Event) (x : AssetId) (k : VersionKey)
    (columns : List Column) : Prop :=
  ∃ es₁ n es₂ b, es = es₁ ++ .advance n :: es₂ ∧ b ∈ (o.after es₁).settledBy (.advance n) ∧
    b.id = x ∧ (o.after es₁).world.services.database.columns k.dataset k.version = .ok columns

theorem ReadsColumns.concat (h : o.ReadsColumns es x k columns) (e : Event) :
    o.ReadsColumns (es ++ [e]) x k columns := by
  obtain ⟨es₁, n, es₂, b, rfl, h⟩ := h
  exact ⟨es₁, n, es₂ ++ [e], b, by rw [List.append_assoc, List.cons_append], h⟩

/-- Where a default asset has fields, they were read when the asset was settled. -/
theorem exists_readsColumns {settings : Settings} {now : Timestamp} {ids : IdSupply}
    (hd : ((initial settings now ids).after es).world.ids.Distinct)
    (ht : ((initial settings now ids).after es).world.store.assets.get? x = some t)
    (hdefault : t.isDefault = true) (hfields : t.metadata.fields ≠ []) :
    ∃ columns, (initial settings now ids).ReadsColumns es x t.key columns ∧
      t.metadata.fields = columns.map Field.ofColumn := by
  induction es using List.reverseRecOn generalizing t with
  | nil => cases ht
  | append_singleton es e ih =>
    have hd₀ := distinct_of_append hd
    have hs := (initial_sound settings now ids).after hd₀
    rw [after_concat] at hd ht
    cases ha : ((initial settings now ids).after es).world.store.assets.get? x with
    | none =>
      -- the asset has just appeared
      exact absurd ((plans_of_none hs hd ha ht).fields_of_isDefault hdefault) hfields
    | some a =>
      obtain ⟨_, he, _⟩ := handle_cases hs e hd
      have hbecomes := (he.asset_of_some hd hs.world ha ht).2.1
      have hkey : t.key = a.key := by rw [hbecomes.same]
      rw [hkey]
      rcases fields_of_handle hs hd ha ht with hkept | ⟨n, columns, rfl, hsettled, hid, hread, hnew⟩
      · rw [hkept] at hfields ⊢
        obtain ⟨columns, hreads, hcolumns⟩ := ih hd₀ ha (hbecomes.isDefault ▸ hdefault) hfields
        exact ⟨columns, hreads.concat e, hcolumns⟩
      · exact ⟨columns, ⟨es, n, [], t, rfl, hsettled, hid, hread⟩, hnew⟩

end Orchestrator

end GeoAssets
