import GeoAssets.Proofs.Lifecycle.Step

/-!
# Teardown takes what it names

Which objects and tables an action removes, and which paths it has forgotten, can be read off the
action (`TeardownAction.deletes`, `drops`, `forgets`). The services after some actions are those
before them without what the actions name (`Services.Cleared`); nothing else is touched.
-/

namespace GeoAssets

/-! ## What actions name -/

namespace TeardownAction

/-- Decides whether an action removes an object. -/
def deletes : TeardownAction → String × String → Bool
  | .deleteObject bucket key, object => object == (bucket, key)
  | .deleteUnder bucket start, object => ObjectService.isUnder bucket start object
  | .dropTable .., _ | .invalidate .., _ => false

/-- Decides whether an action removes a table. -/
def drops : TeardownAction → String × String → Bool
  | .dropTable dataset version, table => table == (dataset, version)
  | .deleteObject .., _ | .deleteUnder .., _ | .invalidate .., _ => false

/-- The paths that an action has forgotten. -/
def forgets : TeardownAction → List String
  | .invalidate _ paths => paths
  | .dropTable .. | .deleteObject .. | .deleteUnder .. => []

end TeardownAction

namespace Services

variable {s s' s'' : Services} {action : TeardownAction} {actions actions' : List TeardownAction}

/-! ## Services after actions -/

/-- The services that actions need are in order. -/
structure IsUp (s : Services) : Prop where
  objects : s.objects.isDown = false
  distribution : s.distribution.isDown = false
  database : s.database.isDown = false

/-- Some actions have removed what they name, and nothing else. -/
structure Cleared (s : Services) (actions : List TeardownAction) (s' : Services) : Prop where
  objects : s'.objects.objects =
    s.objects.objects.filter fun object => !actions.any (·.deletes object)
  tables : s'.database.tables.entries =
    s.database.tables.entries.filter fun e => !actions.any (·.drops e.1)
  paths : s'.distribution.paths = s.distribution.paths ++ actions.flatMap (·.forgets)
  tiles : s'.tiles = s.tiles
  isUp : s.IsUp → s'.IsUp

namespace Cleared

theorem nil (s : Services) : s.Cleared [] s where
  objects := (List.filter_eq_self.mpr fun _ _ => rfl).symm
  tables := (List.filter_eq_self.mpr fun _ _ => rfl).symm
  paths := (List.append_nil _).symm
  tiles := rfl
  isUp := id

theorem append (h : s.Cleared actions s') (h' : s'.Cleared actions' s'') :
    s.Cleared (actions ++ actions') s'' where
  objects := by
    rw [h'.objects, h.objects]
    refine (filter_not_filter_not _ _ _).trans (List.filter_congr fun _ _ => ?_)
    rw [List.any_append]
  tables := by
    rw [h'.tables, h.tables]
    refine (filter_not_filter_not _ _ _).trans (List.filter_congr fun _ _ => ?_)
    rw [List.any_append]
  paths := by rw [h'.paths, h.paths, List.flatMap_append, List.append_assoc]
  tiles := h'.tiles.trans h.tiles
  isUp := fun hup => h'.isUp (h.isUp hup)

theorem mem_objects_iff (h : s.Cleared actions s') {object : String × String} :
    object ∈ s'.objects.objects ↔
      object ∈ s.objects.objects ∧ ∀ action ∈ actions, action.deletes object = false := by
  rw [h.objects, List.mem_filter, Bool.not_eq_true', List.any_eq_false]
  simp only [Bool.not_eq_true]

/-- The tables that are left are those that no action names. -/
theorem get?_tables (h : s.Cleared actions s') (table : String × String) :
    s'.database.tables.get? table =
      if actions.any (·.drops table) then none else s.database.tables.get? table := by
  show Directory.find? table s'.database.tables.entries =
    if _ then none else Directory.find? table s.database.tables.entries
  rw [h.tables, Directory.find?_filter_keys (fun k => !actions.any (·.drops k)) table]
  cases actions.any (·.drops table) <;> rfl

end Cleared

end Services

/-! ## Actions -/

namespace TeardownAction

variable {s s' : Services} {action : TeardownAction}

/-- An action removes what it names. -/
theorem cleared_of_run (h : action.run s = .ok s') : s.Cleared [action] s' := by
  -- what an action does not name is all of a list, and stays
  have all : ∀ {α : Type} (l : List α), l = l.filter fun _ => !(false || false) :=
    fun l => (List.filter_eq_self.mpr fun _ _ => rfl).symm
  cases action with
  | dropTable dataset version =>
    simp only [run, Database.dropTable, bind_eq_ok_iff, require_eq_ok_iff] at h
    obtain ⟨_, ⟨_, _, hd⟩, h⟩ := h
    cases hd
    cases h
    refine ⟨all _, List.filter_congr fun e _ => ?_, (List.append_nil _).symm, rfl,
      fun hup => ⟨hup.objects, hup.distribution, hup.database⟩⟩
    rw [Bool.eq_iff_iff]
    simp [drops]
  | deleteObject bucket key =>
    simp only [run, ObjectService.delete, ObjectService.requireUp, bind_eq_ok_iff,
      require_eq_ok_iff] at h
    obtain ⟨_, ⟨_, _, ho⟩, h⟩ := h
    cases ho
    cases h
    refine ⟨List.filter_congr fun object _ => ?_, all _, (List.append_nil _).symm, rfl,
      fun hup => ⟨hup.objects, hup.distribution, hup.database⟩⟩
    simp [deletes, bne]
  | deleteUnder bucket start =>
    simp only [run, ObjectService.deleteUnder, ObjectService.requireUp, bind_eq_ok_iff,
      require_eq_ok_iff] at h
    obtain ⟨_, ⟨_, _, ho⟩, h⟩ := h
    cases ho
    cases h
    refine ⟨List.filter_congr fun object _ => ?_, all _, (List.append_nil _).symm, rfl,
      fun hup => ⟨hup.objects, hup.distribution, hup.database⟩⟩
    simp [deletes]
  | invalidate id paths =>
    simp only [run, Distribution.invalidate, bind_eq_ok_iff, require_eq_ok_iff] at h
    obtain ⟨_, ⟨_, _, hd⟩, h⟩ := h
    cases hd
    cases h
    refine ⟨all _, all _, ?_, rfl, fun hup => ⟨hup.objects, hup.distribution, hup.database⟩⟩
    simp [forgets, Distribution.paths]

/-- No action fails as long as the services are in order. -/
theorem exists_run_of_isUp (hup : s.IsUp) (action : TeardownAction) :
    ∃ s', action.run s = .ok s' := by
  cases action with
  | dropTable dataset version =>
    refine ⟨_, bind_eq_ok_iff.mpr ⟨_, bind_eq_ok_iff.mpr ⟨(), ?_, rfl⟩, rfl⟩⟩
    rw [require_eq_ok_iff, hup.database, Bool.not_false]
  | deleteObject bucket key =>
    refine ⟨_, bind_eq_ok_iff.mpr ⟨_, bind_eq_ok_iff.mpr ⟨(), ?_, rfl⟩, rfl⟩⟩
    rw [ObjectService.requireUp, require_eq_ok_iff, hup.objects, Bool.not_false]
  | deleteUnder bucket start =>
    refine ⟨_, bind_eq_ok_iff.mpr ⟨_, bind_eq_ok_iff.mpr ⟨(), ?_, rfl⟩, rfl⟩⟩
    rw [ObjectService.requireUp, require_eq_ok_iff, hup.objects, Bool.not_false]
  | invalidate id paths =>
    refine ⟨_, bind_eq_ok_iff.mpr ⟨_, bind_eq_ok_iff.mpr ⟨(), ?_, rfl⟩, rfl⟩⟩
    rw [require_eq_ok_iff, hup.distribution, Bool.not_false]

end TeardownAction

/-! ## Versions -/

namespace Teardown

/-- Decides whether an object is content of a version: it is in the data lake or in the bucket of
tile caches, under the prefix of the version. -/
def isContent (settings : Settings) (key : VersionKey) (object : String × String) : Bool :=
  (object.1 == settings.dataLakeBucket || object.1 == settings.tileCacheBucket) &&
    (Location.versionPrefix key).toList.isPrefixOf object.2.toList

variable (settings : Settings) (key : VersionKey)

theorem isContent_iff {bucket text : String} : isContent settings key (bucket, text) = true ↔
    (bucket = settings.dataLakeBucket ∨ bucket = settings.tileCacheBucket) ∧
      (Location.versionPrefix key).toList <+: text.toList := by
  simp only [isContent, Bool.and_eq_true, Bool.or_eq_true, beq_iff_eq, List.isPrefixOf_iff_prefix]

theorem any_deletes_ofVersion (object : String × String) :
    (ofVersion settings key).any (·.deletes object) = isContent settings key object := by
  simp only [ofVersion, invalidatePath, List.any_cons, List.any_nil, TeardownAction.deletes,
    ObjectService.isUnder, isContent, Bool.false_or, Bool.or_false, Bool.and_or_distrib_right]

theorem any_drops_ofVersion (table : String × String) :
    (ofVersion settings key).any (·.drops table) = (table == (key.dataset, key.version)) := by
  simp only [ofVersion, invalidatePath, List.any_cons, List.any_nil, TeardownAction.drops,
    Bool.or_false]

theorem flatMap_forgets_ofVersion :
    (ofVersion settings key).flatMap (·.forgets) = [Location.versionPath key] := rfl

end Teardown

/-! ## Steps -/

namespace Activity

variable {w : World} {s : Services} {action : TeardownAction} {actions : List TeardownAction}
  {error? : Option Error}

/-- An action is taken. -/
theorem tearDown_step_ok (h : action.run w.services = .ok s) :
    (tearDown (action :: actions) error?).step.run w = (.ok (.goOn (.tearDown actions error?)),
      ({ w with services := s } : World).measure (.teardownStep action.name true)) := by
  have hrun : (Flow.updateServices (action.run ·)).run w = (.ok (), { w with services := s }) := by
    rw [Flow.updateServices, Flow.run_ofRun, h]
  rw [step_run_of_unknown rfl]
  show (takeAction action actions error?).run w = _
  rw [takeAction, Flow.run_attempt_bind, hrun]
  rfl

/-- An action that fails is left out, and the first error is kept. -/
theorem tearDown_step_error {e : Error} (h : action.run w.services = .error e) :
    (tearDown (action :: actions) error?).step.run w =
      (.ok (.goOn (.tearDown actions (error?.or (some e)))),
        w.measure (.teardownStep action.name false)) := by
  have hrun : (Flow.updateServices (action.run ·)).run w = (.error e, w) := by
    rw [Flow.updateServices, Flow.run_ofRun, h]
  rw [step_run_of_unknown rfl]
  show (takeAction action actions error?).run w = _
  rw [takeAction, Flow.run_attempt_bind, hrun]
  rfl

theorem tearDown_step_done (w : World) :
    (tearDown [] none).step.run w = (.ok (.finished .done), w) := rfl

theorem tearDown_step_failed (w : World) (e : Error) :
    (tearDown [] (some e)).step.run w = (.error e, w) := rfl

end Activity

end GeoAssets
