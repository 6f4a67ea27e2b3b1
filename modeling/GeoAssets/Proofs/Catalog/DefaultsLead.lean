import GeoAssets.Proofs.Catalog.Operation

/-!
# Versions and their default assets

Every version has one default asset, and the two have one status (`Store.DefaultsLead`). No
operation on the store changes that: a version is filed and removed together with its default asset,
and the transition of the default asset changes both.
-/

namespace GeoAssets.Store

variable {s s' : Store} {op : Operation}

/-- Every version has one default asset, and has its status. -/
structure DefaultsLead (s : Store) : Prop where
  exists_default : ∀ k v, s.versions.get? k = some v →
    ∃ x a, s.assets.get? x = some a ∧ a.key = k ∧ a.isDefault = true
  unique : ∀ x a y b, s.assets.get? x = some a → s.assets.get? y = some b → a.isDefault = true →
    b.isDefault = true → a.key = b.key → x = y
  status : ∀ x a v, s.assets.get? x = some a → a.isDefault = true →
    s.versions.get? a.key = some v → v.status = a.status

theorem defaultsLead_empty : ({} : Store).DefaultsLead where
  exists_default := fun _ _ h => by cases h
  unique := fun _ _ _ _ h => by cases h
  status := fun _ _ _ h => by cases h

namespace Performs

/-- The transition of the default asset of a version changes both in the same way, and no other
operation changes either status. -/
theorem status_onVersion (h : s.Performs op s') (hd : s.DefaultsLead)
    {x : AssetId} {a : Asset} {v : Version} (ha : s.assets.get? x = some a)
    (hdefault : a.isDefault = true) (hv : v.status = a.status) :
    (op.onVersion a.key v).status = (op.onAsset x a).status := by
  cases h with
  | appendVersionLog =>
    rw [Operation.onVersion]
    exact only_holds (p := fun w : Version => w.status = a.status) (fun _ => hv) hv
  | setExpectedTasks =>
    rw [Operation.onAsset]
    exact only_holds (p := fun b : Asset => v.status = b.status) (fun _ => hv) hv
  | appendAssetLog =>
    rw [Operation.onAsset]
    exact only_holds (p := fun b : Asset => v.status = b.status) (fun _ => hv) hv
  | @commit b t _ _ hb _ ht _ =>
    rw [Operation.onAsset, Operation.onVersion]
    by_cases hx : x = t.asset
    · rw [← hx, ha] at hb
      cases hb
      rw [hx, only_self, only_self, ht.version, if_pos hdefault]
      rfl
    · rw [only_of_ne hx]
      by_cases hk : a.key = b.key
      · -- the default asset of a version is the only one that the version follows
        have hbd : b.isDefault = false := by
          by_contra hbd
          rw [Bool.not_eq_false] at hbd
          exact hx (hd.unique x a t.asset b ha hb hdefault hbd hk)
        rw [hk, only_self, ht.version, hbd]
        exact hv
      · rw [only_of_ne hk]
        exact hv
  | _ => exact hv

/-- No operation files a second default asset. -/
theorem files_default (h : s.Performs op s') (hd : s.DefaultsLead) {b : Asset}
    (hf : op.files? = some b) (hb : b.isDefault = true) : s.versions.get? b.key = none := by
  cases h with
  | @createVersion v a _ hkey _ _ _ _ h =>
    cases hf
    obtain ⟨_, hnone, _, _⟩ := createVersion_eq_ok h
    rw [hkey]
    exact hnone
  | createAsset _ h =>
    cases hf
    obtain ⟨⟨v, hv⟩, _, _, hno, _⟩ := createAsset_eq_ok h
    obtain ⟨x, a, ha, hk, hdef⟩ := hd.exists_default _ _ hv
    exact absurd hk (hno hb a (Directory.mem_values_of_get? ha) hdef)
  | _ => cases hf

/-- Where a default asset that is there afterwards comes from. -/
theorem default_cases (h : s.Performs op s') (hw : s.WellFormed) (hd : s.DefaultsLead)
    {y : AssetId} {b : Asset} (hb : s'.assets.get? y = some b) (hdefault : b.isDefault = true) :
    (∃ a, s.assets.get? y = some a ∧ b = op.onAsset y a ∧ a.isDefault = true ∧ a.key = b.key) ∨
      (s.versions.get? b.key = none ∧ b.IsNew ∧ op.files? = some b ∧ b.id = y) := by
  cases ha : s.assets.get? y with
  | none =>
    right
    obtain ⟨hf, hid, hnew, _⟩ := h.asset_of_none hw ha hb
    exact ⟨h.files_default hd hf hdefault, hnew, hf, hid⟩
  | some a =>
    left
    rcases h.asset_of_some hw ha with ⟨hnone, _⟩ | ⟨hsome, _⟩
    · rw [hnone] at hb
      cases hb
    · rw [hsome] at hb
      cases hb
      have hbec := h.becomes_onAsset ha
      exact ⟨a, rfl, rfl, by rw [← hbec.isDefault]; exact hdefault, hbec.key.symm⟩

/-- Every operation keeps the status of a version with that of its default asset. -/
theorem defaultsLead (h : s.Performs op s') (hw : s.WellFormed) (hd : s.DefaultsLead) :
    s'.DefaultsLead := by
  constructor
  case exists_default =>
    intro k w hw'
    cases hv : s.versions.get? k with
    | none =>
      obtain ⟨a, _, _, hk, hdef, _, _, ha⟩ := h.version_of_none hw hv hw'
      exact ⟨a.id, a, ha, hk, hdef⟩
    | some v =>
      obtain ⟨x, a, ha, hk, hdef⟩ := hd.exists_default k v hv
      rcases h.asset_of_some hw ha with ⟨_, ⟨_, hno⟩ | hop⟩ | ⟨hsome, _⟩
      · rw [hdef] at hno
        cases hno
      · -- the version was removed together with the asset
        subst hop
        cases h with
        | deleteVersion h =>
          obtain ⟨_, _, hvs, _, _⟩ := hw.deleteVersion_eq_ok h
          rw [hvs, hk, Directory.get?_erase_self] at hw'
          cases hw'
      · have hbec := h.becomes_onAsset ha
        exact ⟨x, _, hsome, hbec.key.trans hk, hbec.isDefault.trans hdef⟩
  case unique =>
    intro x a y b ha hb hadef hbdef hk
    rcases h.default_cases hw hd ha hadef with ⟨a₀, ha₀, _, hd₀, hk₀⟩ | ⟨hnone, _, hf, hid⟩
    · rcases h.default_cases hw hd hb hbdef with ⟨b₀, hb₀, _, hd₁, hk₁⟩ | ⟨hnone, _, _, _⟩
      · exact hd.unique x a₀ y b₀ ha₀ hb₀ hd₀ hd₁ (hk₀.trans (hk.trans hk₁.symm))
      · -- only the first asset of a version is filed as its default asset
        obtain ⟨v, hv⟩ := hw.version_of_asset x a₀ ha₀
        rw [hk₀, hk, hnone] at hv
        cases hv
    · rcases h.default_cases hw hd hb hbdef with ⟨b₀, hb₀, _, _, hk₁⟩ | ⟨_, _, hf', hid'⟩
      · obtain ⟨v, hv⟩ := hw.version_of_asset y b₀ hb₀
        rw [hk₁, ← hk, hnone] at hv
        cases hv
      · rw [hf] at hf'
        cases hf'
        exact hid.symm.trans hid'
  case status =>
    intro x b w hb hbdef hw'
    rcases h.default_cases hw hd hb hbdef with ⟨a, ha, rfl, hdef, hk⟩ | ⟨hnone, hnew, _, _⟩
    · obtain ⟨v, hv⟩ := hw.version_of_asset x a ha
      have hs := h.status_onVersion hd ha hdef (hd.status x a v ha hdef hv)
      rcases h.version_of_some hw hv with ⟨hnone, _⟩ | ⟨latest, hsome⟩
      · rw [← hk, hnone] at hw'
        cases hw'
      · rw [← hk, hsome] at hw'
        cases hw'
        exact hs
    · -- both are filed together, and both are pending
      obtain ⟨_, _, _, _, _, _, hpending, _⟩ := h.version_of_none hw hnone hw'
      rw [hpending, hnew.status]

end Performs

theorem PerformsAll.defaultsLead {ops : List Operation} (h : s.PerformsAll ops s')
    (hw : s.WellFormed) (hd : s.DefaultsLead) : s'.DefaultsLead := by
  induction h with
  | nil => exact hd
  | cons hop _ ih => exact ih (hop.wellFormed hw) (hop.defaultsLead hw hd)
  | reject count _ ih => exact ih (hw.rejectTaskWrites count) { hd with }

end GeoAssets.Store
