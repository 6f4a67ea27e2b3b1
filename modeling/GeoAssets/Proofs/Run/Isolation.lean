import GeoAssets.Proofs.Run.Removal

/-!
# What the teardown of a version does to other versions

The prefix of a version is made from its names, and these may contain the separator. So one prefix
may begin another (`Location.Overlap`), and then the teardown of one version reaches the content of
the other; else it reaches nothing of it (`Teardown.spares_ofVersion_iff`). Prefixes of versions
with plain names do not overlap.
-/

namespace GeoAssets

/-! ## Prefixes -/

namespace Location

/-- One of two prefixes begins the other. -/
def Overlap (k k' : VersionKey) : Prop :=
  (versionPrefix k).toList <+: (versionPrefix k').toList ∨
    (versionPrefix k').toList <+: (versionPrefix k).toList

instance (k k' : VersionKey) : Decidable (Overlap k k') :=
  inferInstanceAs (Decidable (_ ∨ _))

/-- The separator is in none of the names. -/
def IsPlain (k : VersionKey) : Prop :=
  '/' ∉ k.dataset.toList ∧ '/' ∉ k.version.toList

theorem toList_versionPrefix (k : VersionKey) : (versionPrefix k).toList =
    k.dataset.toList ++ '/' :: (k.version.toList ++ ['/']) := by
  simp [versionPrefix]

/-- What stands before the first separator can be read off. -/
theorem eq_of_append_separator {α : Type} {c : α} {l l' r r' : List α} (hl : c ∉ l) (hl' : c ∉ l')
    (h : l ++ c :: r <+: l' ++ c :: r') : l = l' ∧ r <+: r' := by
  induction l generalizing l' with
  | nil =>
    cases l' with
    | nil => exact ⟨rfl, (List.cons_prefix_cons.mp h).2⟩
    | cons x l' =>
      obtain ⟨rfl, _⟩ := List.cons_prefix_cons.mp h
      exact absurd List.mem_cons_self hl'
  | cons x l ih =>
    cases l' with
    | nil =>
      obtain ⟨rfl, _⟩ := List.cons_prefix_cons.mp h
      exact absurd List.mem_cons_self hl
    | cons y l' =>
      obtain ⟨rfl, hrest⟩ := List.cons_prefix_cons.mp h
      obtain ⟨rfl, hr⟩ := ih (fun hx => hl (List.mem_cons_of_mem _ hx))
        (fun hx => hl' (List.mem_cons_of_mem _ hx)) hrest
      exact ⟨rfl, hr⟩

/-- A prefix that begins that of another version shows its names, if all names are plain. -/
theorem IsPlain.eq_of_prefix {k k' : VersionKey} (hk : IsPlain k) (hk' : IsPlain k')
    (h : (versionPrefix k).toList <+: (versionPrefix k').toList) : k = k' := by
  rw [toList_versionPrefix, toList_versionPrefix] at h
  obtain ⟨hdataset, h⟩ := eq_of_append_separator hk.1 hk'.1 h
  obtain ⟨hversion, _⟩ := eq_of_append_separator hk.2 hk'.2 h
  cases k
  cases k'
  exact congrArg₂ VersionKey.mk (String.toList_inj.mp hdataset) (String.toList_inj.mp hversion)

/-- Prefixes of versions with plain names do not overlap. -/
theorem IsPlain.not_overlap {k k' : VersionKey} (hk : IsPlain k) (hk' : IsPlain k')
    (hne : k ≠ k') : ¬ Overlap k k' := by
  rintro (h | h)
  · exact hne (hk.eq_of_prefix hk' h)
  · exact hne (hk'.eq_of_prefix hk h).symm

/-- Prefixes overlap if something can be under both. -/
theorem overlap_iff (k k' : VersionKey) : Overlap k k' ↔
    ∃ rest : String, (versionPrefix k).toList <+: (versionPrefix k' ++ rest).toList := by
  simp only [String.toList_append]
  constructor
  · rintro (h | ⟨rest, h⟩)
    · exact ⟨"", h.trans (List.prefix_append _ _)⟩
    · have hsame : (versionPrefix k').toList ++ (String.ofList rest).toList =
          (versionPrefix k).toList := by rw [String.toList_ofList, h]
      exact ⟨String.ofList rest, hsame ▸ List.prefix_refl _⟩
  · rintro ⟨rest, h⟩
    exact List.prefix_or_prefix_of_prefix h (List.prefix_append _ _)

/-- Decides whether a distribution that is told to forget a path forgets another one. A star at the
end stands for any ending. -/
def covers (pattern path : String) : Bool :=
  if pattern.toList.getLast? = some '*' then pattern.toList.dropLast.isPrefixOf path.toList
  else pattern == path

theorem covers_versionPath (k : VersionKey) (path : String) :
    covers (versionPath k) path = ('/' :: (versionPrefix k).toList).isPrefixOf path.toList := by
  have hpath : (versionPath k).toList = '/' :: (versionPrefix k).toList ++ ['*'] := by
    simp [versionPath]
  rw [covers, hpath, List.getLast?_concat, if_pos rfl, List.dropLast_concat]

end Location

/-! ## Actions -/

namespace Teardown

/-- No action reaches what is under the prefix of a version, in any bucket or in the
distribution. -/
structure Spares (actions : List TeardownAction) (key : VersionKey) : Prop where
  objects : ∀ action ∈ actions, ∀ bucket rest,
    action.deletes (bucket, Location.versionPrefix key ++ rest) = false
  paths : ∀ action ∈ actions, ∀ pattern ∈ action.forgets, ∀ rest,
    Location.covers pattern ("/" ++ (Location.versionPrefix key ++ rest)) = false

/-- What the actions of one version do to another version. -/
structure SparesUnlessOverlap (settings : Settings) (actions : List TeardownAction)
    (k k' : VersionKey) : Prop where
  /-- The objects of the other version that are deleted. -/
  objects : ∀ bucket rest,
    (∃ action ∈ actions, action.deletes (bucket, Location.versionPrefix k' ++ rest) = true) ↔
      (bucket = settings.dataLakeBucket ∨ bucket = settings.tileCacheBucket) ∧
        (Location.versionPrefix k).toList <+: (Location.versionPrefix k' ++ rest).toList
  /-- The paths of the other version that are forgotten. -/
  paths : ∀ rest,
    (∃ action ∈ actions, ∃ pattern ∈ action.forgets,
      Location.covers pattern ("/" ++ (Location.versionPrefix k' ++ rest)) = true) ↔
        (Location.versionPrefix k).toList <+: (Location.versionPrefix k' ++ rest).toList
  spares_iff : Spares actions k' ↔ ¬ Location.Overlap k k'
  /-- Versions with plain names are spared. -/
  plain : k ≠ k' → Location.IsPlain k → Location.IsPlain k' → Spares actions k'

variable (settings : Settings) (k k' : VersionKey)

theorem exists_deletes_iff (bucket text : String) :
    (∃ action ∈ ofVersion settings k, action.deletes (bucket, text) = true) ↔
      (bucket = settings.dataLakeBucket ∨ bucket = settings.tileCacheBucket) ∧
        (Location.versionPrefix k).toList <+: text.toList := by
  rw [← isContent_iff, ← any_deletes_ofVersion, List.any_eq_true]

theorem exists_covers_iff (text : String) :
    (∃ action ∈ ofVersion settings k, ∃ pattern ∈ action.forgets,
      Location.covers pattern ("/" ++ text) = true) ↔
        (Location.versionPrefix k).toList <+: text.toList := by
  have hpattern : ∀ pattern, (∃ action ∈ ofVersion settings k, pattern ∈ action.forgets) ↔
      pattern = Location.versionPath k := by
    intro pattern
    rw [← List.mem_flatMap, flatMap_forgets_ofVersion, List.mem_singleton]
  have htext : ("/" ++ text).toList = '/' :: text.toList := by simp
  have hcovers : Location.covers (Location.versionPath k) ("/" ++ text) = true ↔
      (Location.versionPrefix k).toList <+: text.toList := by
    rw [Location.covers_versionPath, htext, List.isPrefixOf_iff_prefix, List.cons_prefix_cons,
      eq_self, true_and]
  constructor
  · rintro ⟨action, haction, pattern, hforgets, h⟩
    rw [(hpattern pattern).mp ⟨action, haction, hforgets⟩] at h
    exact hcovers.mp h
  · intro h
    obtain ⟨action, haction, hforgets⟩ := (hpattern _).mpr rfl
    exact ⟨action, haction, _, hforgets, hcovers.mpr h⟩

/-- The teardown of a version spares another one exactly if their prefixes do not overlap. -/
theorem spares_ofVersion_iff : Spares (ofVersion settings k) k' ↔ ¬ Location.Overlap k k' := by
  rw [Location.overlap_iff]
  constructor
  · rintro h ⟨rest, hrest⟩
    -- the data lake has a place for an object under both prefixes
    obtain ⟨action, haction, hdeletes⟩ :=
      (exists_deletes_iff settings k settings.dataLakeBucket _).mpr ⟨Or.inl rfl, hrest⟩
    rw [h.objects action haction] at hdeletes
    cases hdeletes
  · intro h
    constructor
    · intro action haction bucket rest
      rw [Bool.eq_false_iff]
      intro hdeletes
      exact h ⟨rest, ((exists_deletes_iff settings k bucket _).mp ⟨action, haction, hdeletes⟩).2⟩
    · intro action haction pattern hforgets rest
      rw [Bool.eq_false_iff]
      intro hcovers
      exact h ⟨rest, (exists_covers_iff settings k _).mp
        ⟨action, haction, pattern, hforgets, hcovers⟩⟩

theorem sparesUnlessOverlap_ofVersion :
    SparesUnlessOverlap settings (ofVersion settings k) k k' where
  objects := fun bucket _ => exists_deletes_iff settings k bucket _
  paths := fun _ => exists_covers_iff settings k _
  spares_iff := spares_ofVersion_iff settings k k'
  plain := fun hne hk hk' => (spares_ofVersion_iff settings k k').mpr (hk.not_overlap hk' hne)

end Teardown

/-! ## Deletions -/

namespace Orchestrator

/-- The teardown of a version that is deleted spares all other versions. -/
def IsolatesVersions (o : Orchestrator) : Prop :=
  ∀ k work?, (o.request (Command.deleteVersion k).flow).1 = .ok work? →
    ∀ k' v, o.world.store.versions.get? k' = some v → k ≠ k' →
      ∃ actions, (o.handle (.command (.deleteVersion k))).workAt o.background.started =
        some (.tearDown actions none) ∧ Teardown.Spares actions k'

/-- The teardown of a version that is deleted spares the other versions whose prefixes do not
overlap with that of the version. -/
def IsolatesUnlessOverlap (o : Orchestrator) : Prop :=
  ∀ k work?, (o.request (Command.deleteVersion k).flow).1 = .ok work? →
    ∀ k' v, o.world.store.versions.get? k' = some v → k ≠ k' →
      ∃ actions, (o.handle (.command (.deleteVersion k))).workAt o.background.started =
        some (.tearDown actions none) ∧
          Teardown.SparesUnlessOverlap o.world.settings actions k k'

/-- Versions are isolated from each other unless their prefixes overlap, in every state of every
run. -/
theorem initial_isolatesUnlessOverlap (settings : Settings) (now : Timestamp) (ids : IdSupply)
    (es : List Event) : ((initial settings now ids).after es).IsolatesUnlessOverlap := by
  intro k _ hok k' _ _ _
  exact ⟨_, workAt_deleteVersion hok, Teardown.sparesUnlessOverlap_ofVersion _ k k'⟩

/-! ## A state -/

namespace Sample

/-- A version is created from a table. -/
def createTableOf (key : VersionKey) : Command :=
  .createVersion {
    key
    sourceType := "table"
    options := .object [("source_uri", .array [.string "s3://b/a.csv"])] }

/-- The name of one dataset is that of a version of another. -/
def namesOverlap : List Event :=
  [.command (.createDataset ⟨"a", true, none, .null, [], ⟨0, 0⟩⟩),
    .command (.createDataset ⟨"a/b", true, none, .null, [], ⟨0, 0⟩⟩),
    .command (createTableOf ⟨"a", "b"⟩), .command (createTableOf ⟨"a", "c"⟩),
    .command (createTableOf ⟨"a/b", "c"⟩)]

end Sample

set_option maxRecDepth 100000 in
theorem namesOverlap_isolatesUnlessOverlap : ∃ o, o = Sample.start.after Sample.namesOverlap ∧
    o.world.store.versions.keys = [⟨"a", "b"⟩, ⟨"a", "c"⟩, ⟨"a/b", "c"⟩] ∧
      Sample.isError (o.request (Command.deleteVersion ⟨"a", "b"⟩).flow).1 = false ∧
      ¬ Location.Overlap ⟨"a", "b"⟩ ⟨"a", "c"⟩ ∧ Location.Overlap ⟨"a", "b"⟩ ⟨"a/b", "c"⟩ ∧
      o.IsolatesUnlessOverlap := by
  refine ⟨_, rfl, ?_, ?_, ?_, ?_, initial_isolatesUnlessOverlap _ _ _ _⟩
  · decide +kernel
  · decide +kernel
  · decide +kernel
  · decide +kernel

set_option maxRecDepth 100000 in
/-- The teardown of a version reaches the content of another one whose dataset is named after it. -/
theorem namesOverlap_not_isolatesVersions :
    ¬ (Sample.start.after Sample.namesOverlap).IsolatesVersions := by
  intro h
  have hok : Sample.isError ((Sample.start.after Sample.namesOverlap).request
      (Command.deleteVersion ⟨"a", "b"⟩).flow).1 = false := by decide +kernel
  have hthere : ((Sample.start.after Sample.namesOverlap).world.store.versions.get?
      ⟨"a/b", "c"⟩).isSome = true := by decide +kernel
  obtain ⟨v, hv⟩ := Option.isSome_iff_exists.mp hthere
  cases hr : ((Sample.start.after Sample.namesOverlap).request
      (Command.deleteVersion ⟨"a", "b"⟩).flow).1 with
  | error e =>
    rw [hr] at hok
    cases hok
  | ok work? =>
    obtain ⟨actions, hwork, hspares⟩ := h _ _ hr _ _ hv (by decide)
    rw [workAt_deleteVersion hr] at hwork
    cases hwork
    exact (Teardown.spares_ofVersion_iff _ _ _).mp hspares (by decide +kernel)

end Orchestrator

end GeoAssets
