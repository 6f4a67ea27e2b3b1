import GeoAssets.Options.Source

/-!
# Valid sources

What the checks of a source say of it once it has passed, and that a source that does not pass is
refused with a reason.
-/

namespace GeoAssets

/-! ## Valid sources -/

/-- All suffixes are distinct, if none is found that is not usable. -/
theorem Partitions.nodup_of_firstUnusable? {seen suffixes : List String}
    (h : Partitions.firstUnusable? seen suffixes = none) :
    suffixes.Nodup ∧ ∀ s ∈ suffixes, s ∉ seen := by
  induction suffixes generalizing seen with
  | nil => simp
  | cons s rest ih =>
    unfold Partitions.firstUnusable? at h
    split at h
    · cases h
    · next hs =>
      obtain ⟨hnodup, hnot⟩ := ih h
      refine ⟨List.nodup_cons.mpr ⟨fun hmem => hnot s hmem List.mem_cons_self, hnodup⟩, ?_⟩
      rintro t ht hseen
      rcases List.mem_cons.mp ht with rfl | ht
      · exact hs (Or.inr hseen)
      · exact hnot t ht (List.mem_cons_of_mem s hseen)

theorem Partitions.suffixes_of_validate {p : Partitions} (h : p.validate = .ok ()) :
    p.scheme.suffixes ≠ [] ∧ p.scheme.suffixes.Nodup := by
  unfold Partitions.validate at h
  obtain ⟨_, _, h⟩ := bind_eq_ok_iff.mp h
  obtain ⟨_, hsome, h⟩ := bind_eq_ok_iff.mp h
  rw [require_eq_ok_iff] at hsome
  refine ⟨by simpa using hsome, ?_⟩
  cases hfirst : firstUnusable? [] p.scheme.suffixes with
  | none => exact (nodup_of_firstUnusable? hfirst).1
  | some s =>
    rw [hfirst] at h
    cases h

theorem files_ne_nil_of_validateFiles {files : List String} {u : Unit}
    (h : validateFiles files = .ok u) : files ≠ [] := by
  obtain ⟨_, hsome, _⟩ := bind_eq_ok_iff.mp h
  rw [require_eq_ok_iff] at hsome
  simpa using hsome

theorem VectorSource.files_ne_nil {s : VectorSource} (h : s.validate = .ok ()) : s.files ≠ [] := by
  obtain ⟨_, hfiles, _⟩ := bind_eq_ok_iff.mp h
  exact files_ne_nil_of_validateFiles hfiles

theorem TableSource.files_ne_nil {s : TableSource} (h : s.validate = .ok ()) : s.files ≠ [] := by
  obtain ⟨_, hfiles, _⟩ := bind_eq_ok_iff.mp h
  exact files_ne_nil_of_validateFiles hfiles

/-- The partitions of a valid table source are valid. -/
theorem TableSource.validate_partitions {s : TableSource} (h : s.validate = .ok ()) {p : Partitions}
    (hp : s.partitions = some p) : p.validate = .ok () := by
  unfold TableSource.validate at h
  obtain ⟨_, _, h⟩ := bind_eq_ok_iff.mp h
  obtain ⟨_, _, h⟩ := bind_eq_ok_iff.mp h
  obtain ⟨_, _, h⟩ := bind_eq_ok_iff.mp h
  rw [hp] at h
  obtain ⟨_, h, _⟩ := bind_eq_ok_iff.mp h
  exact h

/-- A valid table source that is split has partitions. -/
theorem TableSource.partitionSuffixes_eq_nil_iff {s : TableSource} (h : s.validate = .ok ()) :
    s.partitionSuffixes = [] ↔ s.partitions = none := by
  unfold TableSource.partitionSuffixes
  cases hp : s.partitions with
  | none => simp
  | some p => simpa using (Partitions.suffixes_of_validate (validate_partitions h hp)).1

/-- The partitions of a valid table source have distinct suffixes. -/
theorem TableSource.nodup_partitionSuffixes {s : TableSource} (h : s.validate = .ok ()) :
    s.partitionSuffixes.Nodup := by
  unfold TableSource.partitionSuffixes
  cases hp : s.partitions with
  | none => exact List.nodup_nil
  | some p => exact (Partitions.suffixes_of_validate (validate_partitions h hp)).2

/-- A valid vector source has a layer. -/
theorem VectorSource.resolvedLayers_ne_nil {s : VectorSource} (h : s.validate = .ok ()) :
    s.resolvedLayers ≠ [] := by
  obtain ⟨_, _, hrest⟩ := bind_eq_ok_iff.mp h
  obtain ⟨_, hlayers, _⟩ := bind_eq_ok_iff.mp hrest
  rw [require_eq_ok_iff] at hlayers
  unfold VectorSource.resolvedLayers
  split
  · next layers hs =>
    rw [hs, Option.all_some, Bool.and_eq_true] at hlayers
    simpa using hlayers.1
  · simpa using VectorSource.files_ne_nil h

/-! ## Refusals -/

/-- Whatever fails refuses creation options, and gives a reason. -/
def RefusesOptions {α : Type} (x : Except Error α) : Prop :=
  ∀ e, x = .error e → ∃ reason, e = .invalidOptions reason

theorem refusesOptions_ok {α : Type} (a : α) : RefusesOptions (.ok a) :=
  nofun

theorem refusesOptions_error {α : Type} (reason : String) :
    RefusesOptions (.error (.invalidOptions reason) : Except Error α) := by
  rintro _ ⟨⟩
  exact ⟨reason, rfl⟩

theorem refusesOptions_require (condition : Bool) (reason : String) :
    RefusesOptions (require condition (.invalidOptions reason)) := by
  cases condition
  · exact refusesOptions_error reason
  · exact refusesOptions_ok ()

theorem RefusesOptions.bind {α β : Type} {x : Except Error α} {f : α → Except Error β}
    (hx : RefusesOptions x) (hf : ∀ a, RefusesOptions (f a)) : RefusesOptions (x >>= f) := by
  intro e h
  cases x with
  | error _ =>
    cases h
    exact hx e rfl
  | ok a => exact hf a e h

theorem refusesOptions_validateFiles (files : List String) : RefusesOptions (validateFiles files) :=
  (refusesOptions_require _ _).bind fun _ => refusesOptions_require _ _

theorem IndexSpec.refusesOptions_validateAll (indices : List IndexSpec) :
    RefusesOptions (IndexSpec.validateAll indices) := by
  induction indices with
  | nil => exact refusesOptions_ok ()
  | cons i rest ih => exact (refusesOptions_require _ _).bind fun _ => ih

theorem Partitions.refusesOptions_validate (p : Partitions) : RefusesOptions p.validate := by
  refine (refusesOptions_require _ _).bind fun _ => (refusesOptions_require _ _).bind fun _ => ?_
  split
  · exact refusesOptions_ok ()
  · exact refusesOptions_error _

theorem VectorSource.refusesOptions_validate (s : VectorSource) : RefusesOptions s.validate :=
  (refusesOptions_validateFiles _).bind fun _ => (refusesOptions_require _ _).bind fun _ =>
    (IndexSpec.refusesOptions_validateAll _).bind fun _ =>
    (IndexSpec.refusesOptions_validateAll _).bind fun _ => refusesOptions_require _ _

theorem TableSource.refusesOptions_validate (s : TableSource) : RefusesOptions s.validate := by
  refine (refusesOptions_validateFiles _).bind fun _ => (refusesOptions_require _ _).bind fun _ =>
    (IndexSpec.refusesOptions_validateAll _).bind fun _ => ?_
  cases s.partitions with
  | none => exact (refusesOptions_ok ()).bind fun _ => refusesOptions_require _ _
  | some p => exact p.refusesOptions_validate.bind fun _ => refusesOptions_require _ _

end GeoAssets
