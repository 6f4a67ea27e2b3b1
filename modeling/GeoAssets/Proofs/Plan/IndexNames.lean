import GeoAssets.Proofs.Plan.Accepted
import GeoAssets.Text.Split

/-!
# The names of index jobs

The job that builds an index is named after the columns and the method of the index, with
underscores in between. Columns may have underscores of their own, so two indices have jobs of one
name if they are built by the same method and their columns consist of the same words
(`IndexSpec.Collides`). A valid source is refused for a name that two jobs have exactly if two of
its indices collide (`Plan.NamesIndices`).
-/

namespace GeoAssets

/-! ## Indices -/

theorem IndexMethod.name_inj {m n : IndexMethod} : m.name = n.name ↔ m = n := by
  cases m <;> cases n <;> decide

theorem IndexMethod.underscore_not_mem_name (m : IndexMethod) : '_' ∉ m.name.toList := by
  cases m <;> decide

namespace IndexSpec

variable {i j : IndexSpec}

/-- The words of an index: the parts of its columns between underscores. -/
def words (i : IndexSpec) : List (List Char) :=
  i.columns.flatMap fun column => Text.pieces '_' column.toList

/-- Two indices are built by one method, on columns of the same words. -/
structure Collides (i j : IndexSpec) : Prop where
  method : i.method = j.method
  words : i.words = j.words

instance (i j : IndexSpec) : Decidable (i.Collides j) :=
  decidable_of_iff (i.method = j.method ∧ i.words = j.words)
    ⟨fun h => ⟨h.1, h.2⟩, fun h => ⟨h.method, h.words⟩⟩

theorem columns_ne_nil (h : i.validate = .ok ()) : i.columns ≠ [] := by
  unfold validate at h
  rw [require_eq_ok_iff, Bool.and_eq_true] at h
  simpa using h.1

/-- The parts of a slug between underscores are the words of the index, and its method. -/
theorem pieces_slug (h : i.columns ≠ []) :
    Text.pieces '_' i.slug.toList = i.words ++ [i.method.name.toList] := by
  have hslug : i.slug.toList =
      List.intercalate ['_'] (i.columns.map String.toList) ++ '_' :: i.method.name.toList := by
    simp [slug]
  have hcolumns : i.columns.map String.toList ≠ [] := by
    simpa using h
  rw [hslug, Text.pieces_append_cons, Text.pieces_intercalate '_' hcolumns,
    Text.pieces_of_not_mem i.method.underscore_not_mem_name, List.flatMap_map]
  rfl

/-- Valid indices have one slug if and only if they collide. -/
theorem slug_eq_iff (hi : i.validate = .ok ()) (hj : j.validate = .ok ()) :
    i.slug = j.slug ↔ i.Collides j := by
  rw [← String.toList_inj, ← Text.pieces_inj '_', pieces_slug (columns_ne_nil hi),
    pieces_slug (columns_ne_nil hj), List.append_singleton_inj, String.toList_inj,
    IndexMethod.name_inj]
  exact ⟨fun h => ⟨h.2, h.1⟩, fun h => ⟨h.words, h.method⟩⟩

/-- No column of the index has an underscore in its name. -/
def IsPlain (i : IndexSpec) : Prop :=
  ∀ column ∈ i.columns, '_' ∉ column.toList

/-- Without underscores every column is one word. -/
theorem IsPlain.words_eq (h : i.IsPlain) : i.words = i.columns.map String.toList := by
  unfold words
  rw [List.flatMap_congr fun column hcolumn => Text.pieces_of_not_mem (h column hcolumn)]
  exact List.map_eq_flatMap.symm

/-- Indices without underscores collide with none but themselves. -/
theorem IsPlain.eq_of_collides (hi : i.IsPlain) (hj : j.IsPlain) (h : i.Collides j) : i = j := by
  have hwords := h.words
  rw [hi.words_eq, hj.words_eq] at hwords
  have hcolumns : i.columns = j.columns :=
    List.map_injective_iff.mpr (fun _ _ => String.toList_inj.mp) hwords
  cases i
  cases j
  cases h.method
  cases hcolumns
  rfl

theorem validate_of_mem {indices : List IndexSpec} (h : validateAll indices = .ok ())
    (hi : i ∈ indices) : i.validate = .ok () := by
  induction indices with
  | nil => cases hi
  | cons k rest ih =>
    obtain ⟨_, hk, hrest⟩ := bind_eq_ok_iff.mp h
    rcases List.mem_cons.mp hi with rfl | hi
    · exact hk
    · exact ih hrest hi

end IndexSpec

/-- The indices of a valid source are valid. -/
theorem CreationOptions.validate_of_mem_indices {options : CreationOptions}
    (h : options.validate = .ok ()) {i : IndexSpec} (hi : i ∈ options.indices) :
    i.validate = .ok () := by
  cases options with
  | vectorSource s =>
    obtain ⟨_, _, h⟩ := bind_eq_ok_iff.mp h
    obtain ⟨_, _, h⟩ := bind_eq_ok_iff.mp h
    obtain ⟨_, h, _⟩ := bind_eq_ok_iff.mp h
    exact IndexSpec.validate_of_mem h hi
  | tableSource s =>
    obtain ⟨_, _, h⟩ := bind_eq_ok_iff.mp h
    obtain ⟨_, _, h⟩ := bind_eq_ok_iff.mp h
    obtain ⟨_, h, _⟩ := bind_eq_ok_iff.mp h
    exact IndexSpec.validate_of_mem h hi
  | _ => cases hi

/-- No two indices of a list of valid ones have one slug, if no two of them collide. -/
theorem IndexSpec.nodup_slugs_iff {indices : List IndexSpec}
    (h : ∀ i ∈ indices, i.validate = .ok ()) : (indices.map (·.slug)).Nodup ↔
      ∀ i j, [i, j].Sublist indices → ¬ i.Collides j := by
  rw [← List.pairwise_iff_forall_sublist, List.Nodup, List.pairwise_map]
  exact List.Pairwise.iff_of_mem fun hi hj => not_congr (slug_eq_iff (h _ hi) (h _ hj))

/-! ## Graphs -/

namespace JobGraph

/-- The error of jobs of which two have one name. -/
def duplicate (n : String) : Error :=
  .invalidOptions ("duplicate job name '" ++ n ++ "'")

theorem duplicate_inj {m n : String} : duplicate m = duplicate n ↔ m = n := by
  unfold duplicate
  rw [Error.invalidOptions.injEq, String.append_left_inj, String.append_right_inj]

/-- Jobs make no graph for the sake of a name exactly if it is the first to occur again. -/
theorem ofJobs_eq_duplicate_iff {jobs : List Job} {n : String} :
    ofJobs jobs = .error (duplicate n) ↔ firstRepeated? [] (jobs.map (·.name)) = some n := by
  unfold ofJobs
  cases hfirst : firstRepeated? [] (jobs.map (·.name)) with
  | some m =>
    rw [Option.some.injEq, ← duplicate_inj]
    exact ⟨Except.error.inj, congrArg Except.error⟩
  | none =>
    refine ⟨fun h => ?_, nofun⟩
    dsimp only at h
    split at h
    · cases h
    · split at h <;> cases h

end JobGraph

/-! ## Plans -/

namespace Plan

open JobGraph

variable {b : Brief} {options : CreationOptions} {t : Template} {js : List Job} {e : Error}
  {n : String}

/-- Whatever the settings are, the jobs for a source have the names of its template. -/
theorem names_of_jobs (ht : template? b.settings.maxParents.toNat options = some t)
    (h : jobs b options = .ok js) : names js = t.names := by
  cases options <;> cases ht
  · next s =>
    obtain ⟨loaded, hload, _⟩ := bind_eq_ok_iff.mp h
    obtain rfl := Except.ok.inj (h.symm.trans (Vector.jobs_eq hload))
    rw [Parts.names_jobs, Vector.template_parts (Vector.names_of_loadJobs hload)]
  · next s =>
    obtain ⟨size, hsize, _⟩ := bind_eq_ok_iff.mp h
    obtain rfl := Except.ok.inj (h.symm.trans (Table.jobs_eq (one_le_of_filesPerJob hsize)))
    rw [Parts.names_jobs, Table.template_parts]

/-- There are jobs for a source, unless none may load its files. -/
theorem jobs_cases (ht : template? b.settings.maxParents.toNat options = some t) :
    (∃ js, jobs b options = .ok js) ∨
      (b.settings.maxParents = 0 ∧ jobs b options = .error .divisionByZero) := by
  cases options <;> cases ht
  · next s =>
    by_cases hcsv : s.driver = .csv
    swap
    · exact Or.inl ⟨_, Vector.jobs_eq (Vector.loadJobs_of_layers hcsv)⟩
    by_cases hlimit : b.settings.maxParents = 0
    · refine Or.inr ⟨hlimit, ?_⟩
      change Vector.jobs b s = _
      rw [Vector.jobs, Vector.loadJobs, hcsv, hlimit]
      rfl
    · exact Or.inl ⟨_, Vector.jobs_eq (Vector.loadJobs_of_csv hcsv (one_le_toNat_iff.mpr hlimit))⟩
  · next s =>
    by_cases hlimit : b.settings.maxParents = 0
    · refine Or.inr ⟨hlimit, ?_⟩
      change Table.jobs b s = _
      rw [Table.jobs, hlimit]
      rfl
    · exact Or.inl ⟨_, Table.jobs_eq (one_le_toNat_iff.mpr hlimit)⟩

/-- Too many parents are another reason. -/
theorem checkFanIn_ne_duplicate {settings : Settings} {g : JobGraph} :
    checkFanIn settings g ≠ .error (duplicate n) := by
  intro h
  unfold checkFanIn require at h
  split at h
  · cases h
  · have htext := congrArg (·.toList.head?) (Error.invalidOptions.inj (Except.error.inj h))
    simp at htext

/-- A valid source is refused for a name exactly if this is the first to occur again among the names
of its jobs. -/
theorem build_eq_duplicate_iff (hoptions : b.asset.options = some options)
    (hv : options.validate = .ok ()) (hfits : options.fits b.asset.type = true)
    (ht : template? b.settings.maxParents.toNat options = some t) :
    build b = .error (duplicate n) ↔
      (∃ js, jobs b options = .ok js) ∧ firstRepeated? [] t.names = some n := by
  rw [build_eq_bind hoptions hv hfits]
  rcases jobs_cases ht with ⟨js, hjobs⟩ | ⟨_, hnone⟩
  swap
  · rw [hnone]
    constructor
    · intro h
      cases h
    · rintro ⟨⟨_, h⟩, _⟩
      cases h
  rw [← names_of_jobs ht hjobs, names, ← ofJobs_eq_duplicate_iff, hjobs]
  refine Iff.trans ?_ (and_iff_right ⟨js, rfl⟩).symm
  change (ofJobs js >>= _) = _ ↔ _
  cases ofJobs js with
  | error e => exact Iff.rfl
  | ok g =>
    refine iff_of_false (fun h => ?_) (fun h => by cases h)
    change (checkFanIn b.settings g >>= _) = _ at h
    cases hfan : checkFanIn b.settings g with
    | ok =>
      rw [hfan] at h
      cases h
    | error e =>
      rw [hfan] at h
      cases h
      exact checkFanIn_ne_duplicate hfan

/-- How the jobs that build the indices of a source are named, and what follows from it. -/
structure NamesIndices (b : Brief) (options : CreationOptions) : Prop where
  /-- The jobs of two valid indices have one name if and only if the indices collide. -/
  sameName_iff : ∀ (parent : String) (timeout : Option UInt64) (i j : IndexSpec),
    i.validate = .ok () → j.validate = .ok () →
      (names (indexJobs b parent timeout [i]) = names (indexJobs b parent timeout [j]) ↔
        i.Collides j)
  /-- The source is refused for a name that two jobs have only if two of its indices collide. -/
  refused : ∀ n, build b = .error (duplicate n) →
    ∃ i j, [i, j].Sublist options.indices ∧ i.Collides j
  /-- It is refused for such a name if two indices collide, whatever else is asked for. -/
  refuses : 1 ≤ b.settings.maxParents.toNat → ∀ i j, [i, j].Sublist options.indices →
    i.Collides j → ∃ n, build b = .error (duplicate n)
  /-- Distinct indices on columns without underscores are never the reason. -/
  plain : options.indices.Nodup → (∀ i ∈ options.indices, i.IsPlain) →
    ∀ n, build b ≠ .error (duplicate n)

/-- A valid source is refused for a name that two jobs have exactly if two of its indices
collide. -/
theorem build_namesIndices (htype : b.asset.type.isDatabase = true)
    (hoptions : b.asset.options = some options)
    (hsource : (∃ s, options = .vectorSource s) ∨ ∃ s, options = .tableSource s)
    (hv : options.validate = .ok ()) : NamesIndices b options := by
  have hfits := fits_of_isDatabase htype hsource
  obtain ⟨t, ht⟩ : ∃ t, template? b.settings.maxParents.toNat options = some t :=
    exists_template? hsource
  have hslugs : t.names.Nodup ↔ ∀ i j, [i, j].Sublist options.indices → ¬ i.Collides j :=
    (Template.nodup_iff ht hv).trans
      (IndexSpec.nodup_slugs_iff fun i hi => CreationOptions.validate_of_mem_indices hv hi)
  have hrepeated : ∀ n, firstRepeated? [] t.names = some n →
      ∃ i j, [i, j].Sublist options.indices ∧ i.Collides j := by
    intro n hn
    by_contra hno
    have hnone := firstRepeated?_eq_none_iff.mpr ⟨hslugs.mpr fun i j hij hcollides =>
      hno ⟨i, j, hij, hcollides⟩, fun m _ => List.not_mem_nil⟩
    rw [hnone] at hn
    cases hn
  constructor
  case sameName_iff =>
    intro parent timeout i j hi hj
    rw [names_indexJobs, names_indexJobs, ← IndexSpec.slug_eq_iff hi hj]
    simp
  case refused =>
    intro n hn
    exact hrepeated n ((build_eq_duplicate_iff hoptions hv hfits ht).mp hn).2
  case refuses =>
    intro hparents i j hij hcollides
    have hjobs := (jobs_cases ht).resolve_right fun h => one_le_toNat_iff.mp hparents h.1
    cases hn : firstRepeated? [] t.names with
    | none => exact absurd hcollides (hslugs.mp (firstRepeated?_eq_none_iff.mp hn).1 i j hij)
    | some n => exact ⟨n, (build_eq_duplicate_iff hoptions hv hfits ht).mpr ⟨hjobs, hn⟩⟩
  case plain =>
    intro hdistinct hplain n hn
    obtain ⟨i, j, hij, hcollides⟩ :=
      hrepeated n ((build_eq_duplicate_iff hoptions hv hfits ht).mp hn).2
    have heq := (hplain i (hij.subset (by simp))).eq_of_collides (hplain j (hij.subset (by simp)))
      hcollides
    have hne := List.pairwise_iff_forall_sublist.mp hdistinct hij
    exact hne heq

/-- Distinct valid indices have jobs of distinct names, and a source is not refused for a name that
two jobs have if its indices are distinct. -/
def NamesApart (b : Brief) (options : CreationOptions) : Prop :=
  (∀ (parent : String) (timeout : Option UInt64) (i j : IndexSpec), i.validate = .ok () →
    j.validate = .ok () → i ≠ j →
      names (indexJobs b parent timeout [i]) ≠ names (indexJobs b parent timeout [j])) ∧
    (options.indices.Nodup → ∀ n, build b ≠ .error (duplicate n))

namespace Sample

/-- A table with an index on two columns, and one on a column whose name the two make up. -/
def regions : TableSource where
  files := ["s3://b/a.csv"]
  indices := [⟨.btree, ["iso", "adm"]⟩, ⟨.btree, ["iso_adm"]⟩]

end Sample

set_option maxRecDepth 100000 in
theorem regions_namesIndices :
    (CreationOptions.tableSource Sample.regions).validate = .ok () ∧
      NamesIndices (Sample.brief (.tableSource Sample.regions)) (.tableSource Sample.regions) ∧
      (CreationOptions.vectorSource Sample.layers).validate = .ok () ∧
      (∀ i ∈ Sample.layers.indices, i.IsPlain) ∧
      NamesIndices (Sample.brief (.vectorSource Sample.layers)) (.vectorSource Sample.layers) := by
  refine ⟨by decide, ?_, by decide, by unfold IndexSpec.IsPlain; decide, ?_⟩
  · exact build_namesIndices rfl rfl (Or.inr ⟨_, rfl⟩) (by decide)
  · exact build_namesIndices rfl rfl (Or.inl ⟨_, rfl⟩) (by decide)

set_option maxRecDepth 100000 in
/-- The two indices are distinct, but their jobs have one name, for which the table is refused. -/
theorem regions_not_namesApart :
    (CreationOptions.tableSource Sample.regions).validate = .ok () ∧
      Sample.regions.indices.Nodup ∧
      (Sample.regions.indices.map (·.slug)) = ["iso_adm_btree", "iso_adm_btree"] ∧
      build (Sample.brief (.tableSource Sample.regions)) =
        .error (duplicate "create_index_iso_adm_btree") ∧
      ¬ NamesApart (Sample.brief (.tableSource Sample.regions)) (.tableSource Sample.regions) := by
  have hv : (CreationOptions.tableSource Sample.regions).validate = .ok () := by decide
  have hdistinct : Sample.regions.indices.Nodup := by decide
  have hrefused : build (Sample.brief (.tableSource Sample.regions)) =
      .error (duplicate "create_index_iso_adm_btree") := by
    refine (build_eq_duplicate_iff rfl hv rfl rfl).mpr ⟨⟨_, Table.jobs_eq (by decide)⟩, ?_⟩
    decide
  exact ⟨hv, hdistinct, by decide, hrefused, fun h => h.2 hdistinct _ hrefused⟩

end Plan

end GeoAssets
