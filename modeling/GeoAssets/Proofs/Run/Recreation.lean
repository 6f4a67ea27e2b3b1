import GeoAssets.Proofs.Run.Answer
import GeoAssets.Proofs.Run.Isolation

/-!
# Late teardown

The key of a deleted version is free at once, but its content is removed in the background, by name
and however much later. A version that was created under the same key meanwhile loses its table and
its objects. No other version does, unless its prefix overlaps with that of the deleted one
(`Orchestrator.SparesUnlessRecreated`).
-/

namespace GeoAssets.Orchestrator

variable {o : Orchestrator} {n : Nat} {k k' : VersionKey}

/-! ## What a step takes -/

/-- The next step of a piece drops the table of a version. -/
def TakesTable (o : Orchestrator) (n : Nat) (k : VersionKey) : Prop :=
  o.world.services.database.hasTable k.dataset k.version = true ∧
    (o.advance n).world.services.database.hasTable k.dataset k.version = false

/-- The next step of a piece deletes an object under the prefix of a version. -/
def TakesObject (o : Orchestrator) (n : Nat) (k : VersionKey) : Prop :=
  ∃ bucket rest, (bucket, Location.versionPrefix k ++ rest) ∈ o.world.services.objects.objects ∧
    (bucket, Location.versionPrefix k ++ rest) ∉ (o.advance n).world.services.objects.objects

instance : Decidable (o.TakesTable n k) :=
  inferInstanceAs (Decidable (_ ∧ _))

/-- Among some events is a request for a version with a key that is granted. -/
def Recreates (o : Orchestrator) (es : List Event) (k : VersionKey) : Prop :=
  ∃ es₁ q es₂, es = es₁ ++ .command (.createVersion q) :: es₂ ∧ q.key = k ∧
    (o.after es₁).Grants (.createVersion q)

/-- A version that is there again was created again. -/
theorem recreates_of_none {es : List Event} (hnone : o.world.store.versions.get? k = none)
    {v : Version} (hv : (o.after es).world.store.versions.get? k = some v) : o.Recreates es k := by
  have hno : ¬ ∃ v, o.world.store.versions.get? k = some v := by
    rw [hnone]
    exact nofun
  obtain ⟨es₁, e, es₂, rfl, hbefore, hsince⟩ :=
    exists_onset (p := fun o => ∃ v, o.world.store.versions.get? k = some v) hno ⟨v, hv⟩
  obtain ⟨w, hw⟩ := hsince [] List.nil_prefix
  obtain ⟨q, rfl, hkey, hgrants⟩ :=
    exists_createVersion (o.after es₁) e (Option.eq_none_iff_forall_ne_some.mpr fun u hu =>
      hbefore ⟨u, hu⟩) hw
  exact ⟨es₁, q, es₂, rfl, hkey, hgrants⟩

/-! ## Pieces that remove the content of a version -/

section

variable {settings : Settings} {quiet : Prop}

/-- A step takes the table of the version, and no other. -/
theorem TearsDown.eq_of_takesTable (h : o.TearsDown n (Teardown.ofVersion settings k) quiet)
    (htakes : o.TakesTable n k') : k' = k := by
  obtain ⟨_, taken, hsub, hcleared, _⟩ := h.advance
  obtain ⟨hbefore, hafter⟩ := htakes
  rw [Database.hasTable, Directory.contains_eq_false_iff, hcleared.get?_tables] at hafter
  split at hafter
  · next hdrops =>
    obtain ⟨action, haction, hdrops⟩ := List.any_eq_true.mp hdrops
    have hall : (Teardown.ofVersion settings k).any (·.drops (k'.dataset, k'.version)) = true :=
      List.any_eq_true.mpr ⟨action, hsub haction, hdrops⟩
    rw [Teardown.any_drops_ofVersion, beq_iff_eq, Prod.mk.injEq] at hall
    cases k'
    cases k
    exact congrArg₂ VersionKey.mk hall.1 hall.2
  · rw [Database.hasTable, Directory.contains, hafter] at hbefore
    cases hbefore

/-- A step takes objects under the prefix of the version, and no others. -/
theorem TearsDown.overlap_of_takesObject (h : o.TearsDown n (Teardown.ofVersion settings k) quiet)
    (htakes : o.TakesObject n k') : Location.Overlap k k' := by
  obtain ⟨_, taken, hsub, hcleared, _⟩ := h.advance
  obtain ⟨bucket, rest, hbefore, hafter⟩ := htakes
  rw [hcleared.mem_objects_iff, not_and] at hafter
  by_contra hno
  refine hafter hbefore fun action haction => Bool.eq_false_iff.mpr fun hdeletes => hno ?_
  exact (Location.overlap_iff k k').mpr ⟨rest, ((Teardown.exists_deletes_iff settings k bucket _).mp
    ⟨action, hsub haction, hdeletes⟩).2⟩

end

/-! ## Deletions -/

/-- The teardown of a version that is deleted takes no content of versions that are there. -/
def SparesVersions (o : Orchestrator) : Prop :=
  ∀ k, o.Grants (.deleteVersion k) → ∀ es k' v,
    ((o.handle (.command (.deleteVersion k))).after es).world.store.versions.get? k' = some v →
      ¬ ((o.handle (.command (.deleteVersion k))).after es).TakesTable o.background.started k' ∧
      ¬ ((o.handle (.command (.deleteVersion k))).after es).TakesObject o.background.started k'

/-- What a step of the teardown of a deleted version takes from the versions that are there. -/
structure TakesOnlyRecreated (o : Orchestrator) (n : Nat) (k : VersionKey) (recreated : Prop) :
    Prop where
  /-- A table that is dropped belongs to a version that was created again. -/
  table : ∀ k' v, o.world.store.versions.get? k' = some v → o.TakesTable n k' →
    k' = k ∧ recreated
  /-- So does an object that is deleted, unless the prefixes of two versions overlap. -/
  object : ∀ k' v, o.world.store.versions.get? k' = some v → o.TakesObject n k' →
    k' = k ∧ recreated ∨ k' ≠ k ∧ Location.Overlap k k'
  /-- If no version was created again, all versions are spared whose names are plain, as those of
  the deleted one. -/
  plain : ¬ recreated → Location.IsPlain k → ∀ k' v, o.world.store.versions.get? k' = some v →
    Location.IsPlain k' → ¬ o.TakesTable n k' ∧ ¬ o.TakesObject n k'

/-- The teardown of a version that is deleted takes content only of that version, if it was created
again, and of versions whose prefixes overlap. Whether the version was created again does not
matter to it. -/
structure SparesUnlessRecreated (o : Orchestrator) : Prop where
  takes : ∀ k, o.Grants (.deleteVersion k) → ∀ es,
    ((o.handle (.command (.deleteVersion k))).after es).TakesOnlyRecreated o.background.started k
      ((o.handle (.command (.deleteVersion k))).Recreates es k)
  /-- As long as no step was taken, the next one drops the table of the version, whoever has created
  it. -/
  blind : ∀ k, o.Grants (.deleteVersion k) → ∀ es,
    let o' := (o.handle (.command (.deleteVersion k))).after es
    .advance o.background.started ∉ es →
      o'.world.services.database.hasTable k.dataset k.version = true →
      o'.world.services.IsUp → o'.TakesTable o.background.started k

theorem takesOnlyRecreated {settings : Settings} {quiet recreated : Prop}
    (h : o.TearsDown n (Teardown.ofVersion settings k) quiet)
    (hrecreated : ∀ v, o.world.store.versions.get? k = some v → recreated) :
    o.TakesOnlyRecreated n k recreated := by
  have htable : ∀ k' v, o.world.store.versions.get? k' = some v → o.TakesTable n k' →
      k' = k ∧ recreated := by
    intro k' v hv htakes
    obtain rfl := h.eq_of_takesTable htakes
    exact ⟨rfl, hrecreated v hv⟩
  have hobject : ∀ k' v, o.world.store.versions.get? k' = some v → o.TakesObject n k' →
      k' = k ∧ recreated ∨ k' ≠ k ∧ Location.Overlap k k' := by
    intro k' v hv htakes
    by_cases hk : k' = k
    · subst hk
      exact Or.inl ⟨rfl, hrecreated v hv⟩
    · exact Or.inr ⟨hk, h.overlap_of_takesObject htakes⟩
  refine ⟨htable, hobject, fun hno hk k' v hv hk' => ⟨fun htakes => ?_, fun htakes => ?_⟩⟩
  · exact hno (htable k' v hv htakes).2
  · rcases hobject k' v hv htakes with ⟨_, hyes⟩ | ⟨hne, hoverlap⟩
    · exact hno hyes
    · exact hk.not_overlap hk' hne.symm hoverlap

/-- A version that was deleted is not there. -/
theorem versions_deleteVersion (h : o.Grants (.deleteVersion k)) :
    (o.handle (.command (.deleteVersion k))).world.store.versions.get? k = none := by
  obtain ⟨v, hs⟩ := changes_of_grants h
  obtain ⟨_, _, hstore⟩ := Store.deleteVersion_eq hs
  rw [hstore]
  exact Directory.get?_erase_self _ k

/-- The piece that a deletion starts tears the version down. -/
theorem tearsDown_deleteVersion (ho : o.Numbered) (h : o.Grants (.deleteVersion k)) :
    (o.handle (.command (.deleteVersion k))).TearsDown o.background.started
        (Teardown.ofVersion o.world.settings k) False ∧
      o.background.started < (o.handle (.command (.deleteVersion k))).background.started := by
  obtain ⟨work?, hok⟩ := grants_iff.mp h
  obtain ⟨hrun, hwork⟩ := obey_of_ok hok
  obtain ⟨_, _, _, _, rfl⟩ := Command.deleteVersion_run hrun
  have hending := (o.endingAt_command (.deleteVersion k) o.background.started).trans
    (ho _ (Nat.le_refl _)).2
  obtain ⟨hactivity, hstarted⟩ := hwork _ rfl
  refine ⟨.underway (List.nil_append _) hactivity hending nofun, ?_⟩
  rw [hstarted]
  exact Nat.lt_succ_self _

/-- A piece that takes no step has the same left to do. -/
theorem workAt_after {es : List Event} (hn : n < o.background.started)
    (hes : Event.advance n ∉ es) : (o.after es).workAt n = o.workAt n := by
  induction es generalizing o with
  | nil => rfl
  | cons e es ih =>
    have he : e ≠ .advance n := fun he => hes (he ▸ List.mem_cons_self)
    have hrest := ih (Nat.lt_of_lt_of_le hn (o.started_handle_le e))
      fun hmem => hes (List.mem_cons_of_mem _ hmem)
    exact hrest.trans (handle_sameAt he hn).workAt

/-- The first step of the teardown of a version drops its table. -/
theorem takesTable_of_workAt {settings : Settings}
    (hwork : o.workAt n = some (.tearDown (Teardown.ofVersion settings k) none))
    (hthere : o.world.services.database.hasTable k.dataset k.version = true)
    (hup : o.world.services.IsUp) : o.TakesTable n k := by
  obtain ⟨s, hs⟩ := TeardownAction.exists_run_of_isUp hup (.dropTable k.dataset k.version)
  obtain ⟨hworld, _⟩ := takeStep_self hwork (Activity.tearDown_step_ok hs)
  refine ⟨hthere, ?_⟩
  rw [advance_of_unlocked hwork rfl, hworld, Database.hasTable, Directory.contains_eq_false_iff]
  have hcleared := TeardownAction.cleared_of_run hs
  exact (hcleared.get?_tables _).trans (if_pos (by simp [TeardownAction.drops]))

/-- In every state of every run the teardown of a deleted version spares the versions that are
there, unless one was created again under its key or prefixes overlap. -/
theorem initial_sparesUnlessRecreated (settings : Settings) (now : Timestamp) (ids : IdSupply)
    (es : List Event) : ((initial settings now ids).after es).SparesUnlessRecreated := by
  have ho : ((initial settings now ids).after es).Numbered :=
    numbered_after (fun _ _ => ⟨rfl, rfl⟩) es
  generalize (initial settings now ids).after es = o at ho
  constructor
  case takes =>
    intro k hgrants es
    obtain ⟨htears, hn⟩ := tearsDown_deleteVersion ho hgrants
    exact takesOnlyRecreated (htears.after hn es nofun) fun v hv =>
      recreates_of_none (versions_deleteVersion hgrants) hv
  case blind =>
    intro k hgrants es _ hes hthere hup
    obtain ⟨_, hn⟩ := tearsDown_deleteVersion ho hgrants
    obtain ⟨_, hok⟩ := grants_iff.mp hgrants
    exact takesTable_of_workAt ((workAt_after hn hes).trans (workAt_deleteVersion hok)) hthere hup

/-! ## A state -/

namespace Sample

/-- The version is created again, and its table and an object are stored. -/
def versionRestored : List Event :=
  [.command createTable,
    .surround {
      now := ⟨0, 0⟩
      services := {
        objects := { objects := [("strata-data-lake", "d/v1/a.tif")] }
        database := { tables := ⟨[(("d", "v1"), [])]⟩ } }
      refused := []
      histories := {}
      rejectedTaskWrites := 0 }]

/-- A dataset with one version. -/
def versionFiled : List Event :=
  datasetFiled ++ [.command createTable]

end Sample

set_option maxRecDepth 100000 in
theorem versionFiled_sparesUnlessRecreated : ∃ o, o = Sample.start.after Sample.versionFiled ∧
    o.Grants (.deleteVersion ⟨"d", "v1"⟩) ∧
      ((o.handle (.command (.deleteVersion ⟨"d", "v1"⟩))).after
        Sample.versionRestored).world.store.versions.keys = [⟨"d", "v1"⟩] ∧
      o.SparesUnlessRecreated := by
  refine ⟨_, rfl, ?_, ?_, initial_sparesUnlessRecreated _ _ _ _⟩
  · decide +kernel
  · decide +kernel

set_option maxRecDepth 100000 in
/-- A version that was created again loses its table to the teardown of its predecessor. -/
theorem versionFiled_not_sparesVersions :
    ¬ (Sample.start.after Sample.versionFiled).SparesVersions := by
  intro h
  have hgrants : (Sample.start.after Sample.versionFiled).Grants (.deleteVersion ⟨"d", "v1"⟩) := by
    decide +kernel
  have hthere : (((Sample.start.after Sample.versionFiled).handle
      (.command (.deleteVersion ⟨"d", "v1"⟩))).after
        Sample.versionRestored).world.store.versions.contains ⟨"d", "v1"⟩ = true := by
    decide +kernel
  obtain ⟨v, hv⟩ := Directory.contains_iff.mp hthere
  exact (h _ hgrants _ _ v hv).1 (by decide +kernel)

end GeoAssets.Orchestrator
