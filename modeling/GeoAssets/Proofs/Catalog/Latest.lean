import GeoAssets.Proofs.Catalog.WellFormed

/-!
# The tag of the latest version

The tags of the versions in a store change in few ways (`Store.Retags`): a version is filed, a
version takes the tag from the others of its dataset, or a version is removed that either has no
tag or is the last one. In each of these ways a dataset has at most one latest version, and keeps
one as long as it has versions.
-/

namespace GeoAssets.Store

variable {s s' : Store}

/-! ## Tags -/

/-- Whether a version has the tag of the latest version, if it is there. -/
def tag? (s : Store) (k : VersionKey) : Option Bool :=
  (s.versions.get? k).map (·.isLatest)

/-- A version is there and is the latest of its dataset. -/
def IsLatest (s : Store) (k : VersionKey) : Prop :=
  ∃ v, s.versions.get? k = some v ∧ v.isLatest = true

theorem isLatest_iff {k : VersionKey} : s.IsLatest k ↔ s.tag? k = some true :=
  Option.map_eq_some_iff.symm

theorem tag?_eq_none_iff {k : VersionKey} : s.tag? k = none ↔ s.versions.get? k = none :=
  Option.map_eq_none_iff

theorem tag?_eq_some_iff {k : VersionKey} {latest : Bool} :
    s.tag? k = some latest ↔ ∃ v, s.versions.get? k = some v ∧ v.isLatest = latest :=
  Option.map_eq_some_iff

theorem tag?_eq (h : s'.versions = s.versions) : s'.tag? = s.tag? := by
  funext k
  rw [tag?, h, tag?]

/-! ## How tags change -/

/-- The tags once a version has taken the tag from the others of its dataset. -/
def crowned (tags : VersionKey → Option Bool) (key k : VersionKey) : Option Bool :=
  if k = key then some true
  else if k.dataset = key.dataset then (tags k).map fun _ => false
  else tags k

/-- How the tags may change at once. -/
inductive Retags (s s' : Store) : Prop where
  | same (h : s'.tag? = s.tag?)
  /-- A version without the tag is filed. -/
  | filed {key : VersionKey} (hnew : s.tag? key = none)
    (h : ∀ k, s'.tag? k = if k = key then some false else s.tag? k)
  /-- A version, old or new, takes the tag from the others. -/
  | crowned {key : VersionKey} (h : s'.tag? = crowned s.tag? key)
  /-- A version without the tag is removed, or the last version of a dataset. -/
  | removed {key : VersionKey}
    (hlast : s.tag? key = some true → ∀ k, k.dataset = key.dataset → k ≠ key → s.tag? k = none)
    (h : ∀ k, s'.tag? k = if k = key then none else s.tag? k)

/-- A dataset has at most one latest version. -/
def OneLatest (s : Store) : Prop :=
  ∀ k k', s.tag? k = some true → s.tag? k' = some true → k.dataset = k'.dataset → k = k'

theorem crowned_eq_some_true_iff {tags : VersionKey → Option Bool} {key k : VersionKey} :
    crowned tags key k = some true ↔
      k = key ∨ k.dataset ≠ key.dataset ∧ tags k = some true := by
  unfold crowned
  by_cases hk : k = key
  · simp [hk]
  · by_cases hd : k.dataset = key.dataset <;> simp [hk, hd]

namespace Retags

/-- No change gives a dataset a second latest version. -/
theorem oneLatest (h : s.Retags s') (hone : s.OneLatest) : s'.OneLatest := by
  intro k k' hk hk' hd
  cases h with
  | same h =>
    rw [h] at hk hk'
    exact hone k k' hk hk' hd
  | filed _ h =>
    rw [h] at hk hk'
    split at hk
    · cases hk
    split at hk'
    · cases hk'
    exact hone k k' hk hk' hd
  | @crowned key h =>
    rw [h, crowned_eq_some_true_iff] at hk hk'
    -- who has the tag is the crowned version, or one of another dataset
    rcases hk with rfl | ⟨hne, hk⟩ <;> rcases hk' with rfl | ⟨hne', hk'⟩
    · rfl
    · exact absurd hd.symm hne'
    · exact absurd hd hne
    · exact hone k k' hk hk' hd
  | removed _ h =>
    rw [h] at hk hk'
    split at hk
    · cases hk
    split at hk'
    · cases hk'
    exact hone k k' hk hk' hd

/-- A dataset that has a latest version has one as long as it has versions. -/
theorem exists_latest (h : s.Retags s') {dataset : String}
    (hbefore : ∃ k, k.dataset = dataset ∧ s.tag? k = some true)
    (hafter : ∃ k, k.dataset = dataset ∧ s'.tag? k ≠ none) :
    ∃ k, k.dataset = dataset ∧ s'.tag? k = some true := by
  obtain ⟨k, hk, htag⟩ := hbefore
  cases h with
  | same h => exact ⟨k, hk, by rw [h, htag]⟩
  | @filed key hnew h =>
    have hne : k ≠ key := by
      rintro rfl
      rw [hnew] at htag
      cases htag
    exact ⟨k, hk, by rw [h, if_neg hne, htag]⟩
  | @crowned key h =>
    by_cases hd : key.dataset = dataset
    · exact ⟨key, hd, by rw [h, crowned_eq_some_true_iff]; exact Or.inl rfl⟩
    · refine ⟨k, hk, ?_⟩
      rw [h, crowned_eq_some_true_iff]
      exact Or.inr ⟨fun he => hd (he.symm.trans hk), htag⟩
  | @removed key hlast h =>
    by_cases hne : k = key
    · -- the latest version was removed, so it was the last one
      subst hne
      obtain ⟨k', hk', htag'⟩ := hafter
      rw [h] at htag'
      split at htag'
      · exact absurd rfl htag'
      · next hne' => exact absurd (hlast htag k' (hk'.trans hk.symm) hne') htag'
    · exact ⟨k, hk, by rw [h, if_neg hne, htag]⟩

end Retags

/-! ## What operations do to tags -/

theorem Revises.tag? {f : AssetId → Asset → Asset} {g : VersionKey → Version → Version}
    {h : TaskId → Task → Task} (r : Revises s s' f g h)
    (hg : ∀ k v, (g k v).isLatest = v.isLatest) : s'.tag? = s.tag? := by
  funext k
  rw [Store.tag?, r.versions, Option.map_map, Store.tag?]
  congr 1
  funext v
  exact hg k v

/-- The tags after a version was filed, in place of an old one or not, once the others have lost
theirs. -/
theorem tag?_insert_demoteOthers (s : Store) {key : VersionKey} {v : Version}
    (hv : v.isLatest = true) :
    ({ s with versions := (s.demoteOthers key).versions.insert key v } : Store).tag? =
      crowned s.tag? key := by
  funext k
  show (((s.demoteOthers key).versions.insert key v).get? k).map (·.isLatest) = _
  rw [Directory.get?_insert, (demoteOthers_revises s key).versions]
  unfold crowned Store.tag?
  by_cases hk : k = key
  · simp [hk, hv]
  · rw [if_neg (Ne.symm hk), if_neg hk, Option.map_map]
    by_cases hd : k.dataset = key.dataset
    · simp [hd, hk, Function.comp_def]
    · simp [hd, Function.comp_def]

theorem retags_createVersion {v : Version} {a : Asset} (hs : s.createVersion v a = .ok s') :
    s.Retags s' := by
  obtain ⟨_, hnone, _, rfl⟩ := createVersion_eq_ok hs
  by_cases hl : v.isLatest = true
  · refine @Retags.crowned _ _ v.key ?_
    rw [← tag?_insert_demoteOthers s hl]
    simp only [hl, if_true]
    rfl
  · refine @Retags.filed _ _ v.key (tag?_eq_none_iff.mpr hnone) fun k => ?_
    rw [Bool.not_eq_true] at hl
    simp only [hl, Bool.false_eq_true, if_false]
    show ((s.versions.insert v.key v).get? k).map (·.isLatest) = _
    rw [Directory.get?_insert]
    by_cases hk : k = v.key
    · simp [hk, hl]
    · rw [if_neg (Ne.symm hk), if_neg hk, Store.tag?]

theorem retags_setLatest {key : VersionKey} {v : Version} (hs : s.setLatest key = .ok (v, s')) :
    s.Retags s' := by
  simp only [setLatest, bind_eq_ok_iff] at hs
  obtain ⟨u, _, hs⟩ := hs
  cases hs
  exact .crowned (tag?_insert_demoteOthers s rfl)

theorem versions_foldl_removeAsset (as : List Asset) (s : Store) :
    (as.foldl removeAsset s).versions = s.versions := by
  induction as generalizing s with
  | nil => rfl
  | cons a as ih => exact ih (s.removeAsset a)

/-- The tags once a version was removed. -/
theorem tag?_deleteVersion {key : VersionKey} {v : Version} (hs : s.deleteVersion key = .ok (v, s'))
    (k : VersionKey) : s'.tag? k = if k = key then none else s.tag? k := by
  obtain ⟨_, _, rfl⟩ := deleteVersion_eq hs
  rw [Store.tag?]
  dsimp only
  rw [versions_foldl_removeAsset, Directory.get?_erase]
  by_cases hk : k = key
  · rw [if_pos hk.symm, if_pos hk]
    rfl
  · rw [if_neg (Ne.symm hk), if_neg hk, Store.tag?]

theorem retags_deleteVersion {key : VersionKey} {v : Version}
    (hs : s.deleteVersion key = .ok (v, s')) : s.Retags s' := by
  refine @Retags.removed _ _ key ?_ (tag?_deleteVersion hs)
  -- the tag is removed only where there are no siblings
  intro htag k hd hne
  obtain ⟨hv, hlast, _⟩ := deleteVersion_eq hs
  obtain ⟨w, hw, hl⟩ := tag?_eq_some_iff.mp htag
  rw [hv] at hw
  cases hw
  rw [tag?_eq_none_iff, ← Directory.contains_eq_false_iff]
  by_contra hthere
  rw [Bool.not_eq_false, ← Directory.mem_keys_iff] at hthere
  exact hne (hlast hl k hthere hd)

theorem tag?_createTask (s : Store) (t : Task) : (s.createTask t).2.tag? = s.tag? := by
  refine tag?_eq ?_
  unfold createTask
  repeat' split
  all_goals rfl

theorem tag?_appendVersionLog {key : VersionKey} {e : LogEntry}
    (hs : s.appendVersionLog key e = .ok s') : s'.tag? = s.tag? :=
  (appendVersionLog_revises hs).tag? fun _ v =>
    only_holds (p := fun w : Version => w.isLatest = v.isLatest) (fun _ => rfl) rfl

theorem tag?_commit (s : Store) (t : Transition) : (s.commit t).2.tag? = s.tag? := by
  cases ha : s.assets.get? t.asset with
  | none =>
    rw [commit, ha]
  | some a =>
    cases hfinal : a.status.isTerminal with
    | true =>
      rw [commit, ha]
      simp only [hfinal, if_true]
    | false =>
      obtain ⟨s₁, hs, r⟩ := commit_of_pending ha hfinal
      rw [hs]
      refine r.tag? fun _ v =>
        only_holds (p := fun w : Version => w.isLatest = v.isLatest) (fun _ => ?_) rfl
      cases t.version <;> rfl

end GeoAssets.Store
