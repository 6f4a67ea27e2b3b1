import GeoAssets.Proofs.Catalog.Emptying
import GeoAssets.Proofs.Run.Answer

/-!
# Every dataset can be emptied

In every state of a run, the versions of a dataset can be deleted in any order in which the latest
one comes last. Each deletion is granted, whatever happens in between to other datasets, to assets
and in the background, and then the dataset can be deleted as well (`Orchestrator.Empties`).
-/

namespace GeoAssets

/-! ## Requests for other datasets -/

/-- The dataset that a request may remove, or whose versions it may file, remove or tag. -/
def Command.dataset? : Command → Option String
  | .deleteDataset name => some name
  | .createVersion q => some q.key.dataset
  | .setLatest key | .deleteVersion key => some key.dataset
  | .createDataset _ | .createDefaultAsset .. | .createAsset .. | .deleteAsset _ | .getTask _
  | .resubmissionCores .. | .resubmissionProcesses .. => none

/-- The dataset that an event may remove, or whose versions it may file, remove or tag. -/
def Event.dataset? : Event → Option String
  | .command c => c.dataset?
  | _ => none

/-- The versions of a dataset are deleted one after the other. What happens in between leaves their
tags and the dataset alone. -/
inductive Event.DeleteInTurn (dataset : String) : List VersionKey → List Event → Prop where
  | nil : DeleteInTurn dataset [] []
  | delete {key : VersionKey} {keys : List VersionKey} {es : List Event}
    (h : DeleteInTurn dataset keys es) :
    DeleteInTurn dataset (key :: keys) (.command (.deleteVersion key) :: es)
  | other {e : Event} {keys : List VersionKey} {es : List Event} (he : e.dataset? ≠ some dataset)
    (h : DeleteInTurn dataset keys es) : DeleteInTurn dataset keys (e :: es)

/-! ## Steps -/

/-- The datasets stay. -/
def World.KeepsDatasets (w w' : World) : Prop :=
  w'.store.datasets = w.store.datasets

instance : World.Permits World.KeepsDatasets where
  refl := fun _ => rfl
  trans := fun h h' => Eq.trans h' h
  measure := fun _ _ => rfl
  drawAsset := fun _ => rfl
  tiles := fun _ _ => rfl
  tearDown := fun _ _ _ _ => rfl
  commit := fun w t => w.store.datasets_commit t
  createTask := fun w t => w.store.datasets_createTask t
  updateAsset := fun _ _ _ _ hs => (Store.updateAsset_revises hs).datasets
  createAsset := fun _ _ _ hs => by
    obtain ⟨_, _, _, _, rfl⟩ := Store.createAsset_eq_ok hs
    rfl
  appendTaskLog := fun _ _ _ _ _ hs => (Store.appendTaskLog_revises hs).datasets
  appendVersionLog := fun _ _ _ _ hs => (Store.appendVersionLog_revises hs).datasets

theorem Activity.step_keepsDatasets (a : Activity) : a.step.Within World.KeepsDatasets :=
  a.step_within fun _ _ _ _ _ => rfl

/-- Events that are not requests leave the datasets alone. -/
theorem Orchestrator.datasets_handle (o : Orchestrator) {e : Event} (he : ∀ c, e ≠ .command c) :
    (o.handle e).world.store.datasets = o.world.store.datasets := by
  have h := o.handle_touches e
  generalize (o.handle e).world = w' at h ⊢
  cases h with
  | @request c => exact absurd rfl (he c)
  | @step _ a _ _ _ hr => exact a.step_keepsDatasets o.world _ w' hr
  | surround | nothing => rfl

namespace Command

variable {w : World} {c : Command} {s : Store} {dataset : String}

/-- A request for another dataset leaves the tags of the versions alone. -/
theorem Changes.tag? (h : c.Changes w s) (hc : c.dataset? ≠ some dataset) {k : VersionKey}
    (hk : k.dataset = dataset) : s.tag? k = w.store.tag? k := by
  subst hk
  cases c with
  | createVersion q =>
    obtain ⟨_, _, _, hs⟩ := h
    exact Store.tag?_createVersion hs fun hk => hc (congrArg some hk.symm)
  | setLatest key =>
    obtain ⟨_, hs⟩ := h
    exact Store.tag?_setLatest hs fun hk => hc (congrArg some hk.symm)
  | deleteVersion key =>
    obtain ⟨_, hs⟩ := h
    have hne : k ≠ key := fun hk => hc (congrArg (fun key : VersionKey => some key.dataset) hk.symm)
    rw [Store.tag?_deleteVersion hs, if_neg hne]
  | createDataset d =>
    obtain rfl := Store.createDataset_eq_ok h
    rfl
  | deleteDataset name =>
    obtain ⟨_, hs⟩ := h
    obtain ⟨_, rfl⟩ := Store.deleteDataset_eq_ok hs
    rfl
  | createDefaultAsset | createAsset =>
    obtain ⟨_, _, _, hs⟩ := h
    obtain ⟨_, _, _, _, rfl⟩ := Store.createAsset_eq_ok hs
    rfl
  | deleteAsset id =>
    obtain ⟨_, hs⟩ := h
    obtain ⟨_, _, rfl⟩ := Store.deleteAsset_eq_ok hs
    rfl
  | getTask | resubmissionCores | resubmissionProcesses => exact congrArg (Store.tag? · k) h

/-- A request leaves a dataset there that it is not to remove. -/
theorem Changes.exists_dataset (h : c.Changes w s) (hc : c.dataset? ≠ some dataset)
    (hthere : ∃ d, w.store.datasets.get? dataset = some d) :
    ∃ d, s.datasets.get? dataset = some d := by
  cases c with
  | createDataset d =>
    obtain rfl := Store.createDataset_eq_ok h
    show ∃ d', (Directory.insert _ d.name d).get? dataset = some d'
    rw [Directory.get?_insert]
    split
    · exact ⟨d, rfl⟩
    · exact hthere
  | deleteDataset name =>
    obtain ⟨_, hs⟩ := h
    obtain ⟨_, rfl⟩ := Store.deleteDataset_eq_ok hs
    have hne : name ≠ dataset := fun hname => hc (congrArg some hname)
    show ∃ d, (Directory.erase _ name).get? dataset = some d
    rwa [Directory.get?_erase_of_ne hne]
  | createVersion q =>
    obtain ⟨_, _, _, hs⟩ := h
    obtain ⟨_, _, _, rfl⟩ := Store.createVersion_eq_ok hs
    show ∃ d, Directory.get? (ite _ _ _ : Store).datasets dataset = some d
    split
    · exact hthere
    · exact hthere
  | setLatest key =>
    obtain ⟨_, hs⟩ := h
    obtain ⟨_, hrevises⟩ := Store.setLatest_revises hs
    rwa [hrevises.datasets]
  | deleteVersion key =>
    obtain ⟨_, hs⟩ := h
    rwa [Store.datasets_deleteVersion hs]
  | createDefaultAsset | createAsset =>
    obtain ⟨_, _, _, hs⟩ := h
    obtain ⟨_, _, _, _, rfl⟩ := Store.createAsset_eq_ok hs
    exact hthere
  | deleteAsset id =>
    obtain ⟨_, hs⟩ := h
    obtain ⟨_, _, rfl⟩ := Store.deleteAsset_eq_ok hs
    exact hthere
  | getTask | resubmissionCores | resubmissionProcesses =>
    rw [show s = w.store from h]
    exact hthere

end Command

namespace Orchestrator

variable {o : Orchestrator} {dataset : String} {key : VersionKey} {keys : List VersionKey}
  {es : List Event}

/-! ## Requests that are granted -/

/-- A version is deleted if the store agrees. -/
theorem grants_deleteVersion (h : ∃ v s, o.world.store.deleteVersion key = .ok (v, s)) :
    o.Grants (.deleteVersion key) := by
  obtain ⟨v, s, hs⟩ := h
  rcases hr : (Command.deleteVersion key).flow.run o.world with ⟨r, w'⟩
  rcases Flow.run_map_cases hr with ⟨_, _, rfl⟩ | ⟨_, hf, _⟩
  · exact grants_iff.mpr ⟨_, (obey_cases hr).1⟩
  · unfold Request.deleteVersion at hf
    rcases Flow.run_takeFromStore_bind_cases hf with ⟨_, _, _, hf⟩ | ⟨_, herror, _⟩
    · cases hf
    · cases hs.symm.trans herror

/-- A dataset is deleted if the store agrees. -/
theorem grants_deleteDataset (h : ∃ d s, o.world.store.deleteDataset dataset = .ok (d, s)) :
    o.Grants (.deleteDataset dataset) := by
  obtain ⟨d, s, hs⟩ := h
  rcases hr : (Command.deleteDataset dataset).flow.run o.world with ⟨r, w'⟩
  rcases Flow.run_map_cases hr with ⟨_, _, rfl⟩ | ⟨_, hf, _⟩
  · exact grants_iff.mpr ⟨_, (obey_cases hr).1⟩
  · rcases Flow.run_takeFromStore_cases hf with ⟨_, _, _, hr', _⟩ | ⟨_, herror, _⟩
    · cases hr'
    · cases hs.symm.trans herror

/-! ## Emptying step by step -/

/-- A dataset is there, and its versions may be deleted in some order. -/
structure CanEmpty (o : Orchestrator) (dataset : String) (keys : List VersionKey) : Prop where
  there : ∃ d, o.world.store.datasets.get? dataset = some d
  order : o.world.store.EmptyingOrder dataset keys

/-- An event that is not about the dataset changes nothing of this. -/
theorem CanEmpty.handle (h : o.CanEmpty dataset keys) {e : Event} (he : e.dataset? ≠ some dataset) :
    (o.handle e).CanEmpty dataset keys := by
  by_cases hcommand : ∃ c, e = .command c
  · obtain ⟨c, rfl⟩ := hcommand
    rcases o.handle_command_cases c with ⟨_, hc⟩ | ⟨_, hstore⟩
    · exact ⟨hc.exists_dataset he h.there, h.order.congr fun _ hk => hc.tag? he hk⟩
    · refine ⟨?_, h.order.congr fun _ _ => ?_⟩
      · rw [hstore]
        exact h.there
      · rw [hstore]
  · have hdatasets := o.datasets_handle fun c hc => hcommand ⟨c, hc⟩
    have htags := o.tag?_handle fun c hc => hcommand ⟨c, hc⟩
    refine ⟨?_, h.order.congr fun k _ => congrFun htags k⟩
    rw [hdatasets]
    exact h.there

/-- The first version is deleted, and the others remain to be deleted. -/
theorem CanEmpty.delete (h : o.CanEmpty dataset (key :: keys)) : o.Grants (.deleteVersion key) ∧
    (o.handle (.command (.deleteVersion key))).CanEmpty dataset keys := by
  have hgrants := grants_deleteVersion h.order.deleteVersion_ok
  obtain ⟨_, hs⟩ := changes_of_grants hgrants
  refine ⟨hgrants, ?_, h.order.tail hs⟩
  rw [Store.datasets_deleteVersion hs]
  exact h.there

/-- The versions are deleted one after the other. -/
theorem CanEmpty.after (h : o.CanEmpty dataset keys) (hes : Event.DeleteInTurn dataset keys es) :
    (o.after es).CanEmpty dataset [] ∧ ∀ es₁ key es₂,
      es = es₁ ++ .command (.deleteVersion key) :: es₂ → key.dataset = dataset →
      (o.after es₁).Grants (.deleteVersion key) := by
  induction hes generalizing o with
  | nil =>
    refine ⟨h, fun es₁ key es₂ hes => ?_⟩
    cases (List.append_eq_nil_iff.mp hes.symm).2
  | @delete key keys es hes ih =>
    obtain ⟨hgrants, hrest⟩ := h.delete
    obtain ⟨hend, hlater⟩ := ih hrest
    refine ⟨hend, fun es₁ key' es₂ heq hkey => ?_⟩
    cases es₁ with
    | nil =>
      cases heq
      exact hgrants
    | cons e es₁ =>
      cases heq
      exact hlater es₁ key' es₂ rfl hkey
  | @other e keys es he hes ih =>
    obtain ⟨hend, hlater⟩ := ih (h.handle he)
    refine ⟨hend, fun es₁ key' es₂ heq hkey => ?_⟩
    cases es₁ with
    | nil =>
      cases heq
      exact absurd (congrArg some hkey) he
    | cons e' es₁ =>
      cases heq
      exact hlater es₁ key' es₂ rfl hkey

/-! ## Runs -/

/-- From a state on, a dataset can be emptied and deleted. -/
structure Empties (o : Orchestrator) (dataset : String) : Prop where
  /-- There is an order in which its versions can be deleted. -/
  order : ∃ keys, o.world.store.EmptyingOrder dataset keys
  /-- In any such order each deletion is granted. -/
  versions : ∀ keys es, o.world.store.EmptyingOrder dataset keys →
    Event.DeleteInTurn dataset keys es → ∀ es₁ key es₂,
      es = es₁ ++ .command (.deleteVersion key) :: es₂ → key.dataset = dataset →
      (o.after es₁).Grants (.deleteVersion key)
  /-- Then the deletion of the dataset is granted. -/
  last : ∀ keys es, o.world.store.EmptyingOrder dataset keys →
    Event.DeleteInTurn dataset keys es → (o.after es).Grants (.deleteDataset dataset)
  /-- After it nothing in the store belongs to the dataset. -/
  lacks : ∀ keys es es', o.world.store.EmptyingOrder dataset keys →
    Event.DeleteInTurn dataset keys es → es' = es ++ [.command (.deleteDataset dataset)] →
    (o.after es').world.ids.Distinct → (o.after es').world.store.LacksDataset dataset

/-- A dataset without versions is deleted. -/
theorem CanEmpty.finish (h : o.CanEmpty dataset []) : o.Grants (.deleteDataset dataset) ∧
    dataset ∉ (o.handle (.command (.deleteDataset dataset))).world.store.datasets.keys := by
  obtain ⟨_, hd⟩ := h.there
  have hgrants := grants_deleteDataset (h.order.deleteDataset_ok hd)
  refine ⟨hgrants, ?_⟩
  obtain ⟨_, hs⟩ := changes_of_grants hgrants
  rw [Directory.mem_keys_iff_get?, (Store.deleteDataset_eq_ok hs).2]
  rintro ⟨_, hthere⟩
  cases (Directory.get?_erase_self _ _).symm.trans hthere

/-- Every dataset can be emptied in every state of every run. -/
theorem initial_empties {settings : Settings} {now : Timestamp} {ids : IdSupply}
    {es : List Event} {dataset : String} {d : Dataset}
    (hd : ((initial settings now ids).after es).world.store.datasets.get? dataset = some d) :
    ((initial settings now ids).after es).Empties dataset := by
  have hcan : ∀ keys, ((initial settings now ids).after es).world.store.EmptyingOrder dataset keys →
      ((initial settings now ids).after es).CanEmpty dataset keys := fun _ h => ⟨⟨d, hd⟩, h⟩
  constructor
  case order =>
    exact Store.exists_emptyingOrder (oneLatest_after (fun _ _ h => by cases h) es) dataset
  case versions => exact fun keys es' h hes => ((hcan keys h).after hes).2
  case last => exact fun keys es' h hes => ((hcan keys h).after hes).1.finish.1
  case lacks =>
    rintro keys es' _ h hes rfl hids
    rw [← after_append] at hids
    have hs := initial_sound settings now ids
    have hconsistent := (hs.after hids).world.wellFormed.consistent
      (tidy_after hs hids Store.tidy_empty)
    rw [after_append] at hconsistent
    refine hconsistent.lacksDataset ?_
    rw [after_concat]
    exact ((hcan keys h).after hes).1.finish.2

/-! ## A run -/

namespace Sample

/-- Two versions whose jobs are being submitted. The latest one is deleted last. -/
def versionsUnderway : List Event :=
  datasetFiled ++ [.command createTable, .command createLatest, .advance 0, .advance 1]

def datasetEmptied : List Event :=
  [.command (.deleteVersion ⟨"d", "v1"⟩), .advance 0, .advance 1,
    .command (.deleteVersion ⟨"d", "v2"⟩), .command (.deleteDataset "d")]

/-- The numbers of datasets, versions, assets, places and tasks. -/
def sizes (o : Orchestrator) : List Nat :=
  let s := o.world.store
  [s.datasets.size, s.versions.size, s.assets.size, s.places.size, s.tasks.size]

end Sample

set_option maxRecDepth 100000 in
theorem versionsUnderway_empties : ∃ o d, o = Sample.start.after Sample.versionsUnderway ∧
    o.world.store.datasets.get? "d" = some d ∧
      (List.range 6).map (fun n => Sample.sizes (o.after (Sample.datasetEmptied.take n))) =
        [[1, 2, 2, 2, 2], [1, 1, 1, 1, 1], [1, 1, 1, 1, 1], [1, 1, 1, 1, 2], [1, 0, 0, 0, 0],
          [0, 0, 0, 0, 0]] ∧ o.Empties "d" := by
  have hthere : ((Sample.start.after Sample.versionsUnderway).world.store.datasets.get?
      "d").isSome = true := by decide +kernel
  obtain ⟨d, hd⟩ := Option.isSome_iff_exists.mp hthere
  refine ⟨_, d, rfl, hd, ?_, initial_empties hd⟩
  decide +kernel

end Orchestrator

end GeoAssets
