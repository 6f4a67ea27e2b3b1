import GeoAssets.Proofs.Run.Settling

/-!
# Assets are settled once

In a run an asset changes its status at most once, from pending to a final status, by one commit
that takes the version along if the asset is the default one. What was counted is what was settled.
-/

namespace GeoAssets.Orchestrator

variable {o : Orchestrator}

/-! ## What an event settles -/

/-- The assets that an event settles, as they are afterwards. -/
def settledBy (o : Orchestrator) (e : Event) : List Asset :=
  (o.handle e).world.store.assets.values.filter fun b =>
    (o.world.store.assets.get? b.id).any (·.status != b.status)

/-- What is counted when an asset is settled. -/
def settlementCounts (b : Asset) : List Measurement :=
  .assetSettled b.type b.status :: if b.isDefault then [.versionSettled b.status] else []

theorem mem_settledBy_iff {e : Event} (hs : (o.handle e).Sound) {b : Asset} :
    b ∈ o.settledBy e ↔ (o.handle e).world.store.assets.get? b.id = some b ∧
      ∃ a, o.world.store.assets.get? b.id = some a ∧ a.status ≠ b.status := by
  unfold settledBy
  rw [List.mem_filter, hs.world.wellFormed.mem_values_iff, Option.any_eq_true]
  simp only [bne_iff_ne]

/-- A list without repetitions in which one element has a property. -/
theorem filter_eq_singleton {l : List Asset} {p : Asset → Bool} {b : Asset} (hl : l.Nodup)
    (h : ∀ c, c ∈ l.filter p ↔ c = b) : l.filter p = [b] := by
  have hperm : (l.filter p).Perm [b] := by
    refine (List.perm_ext_iff_of_nodup (hl.filter p) (List.nodup_singleton b)).mpr fun c => ?_
    rw [h, List.mem_singleton]
  exact List.perm_singleton.mp hperm

/-- An event settles nothing, or one asset, and counts what it settles. -/
theorem settledBy_cases (hs : o.Sound) (e : Event) (hd : (o.handle e).world.ids.Distinct) :
    (o.settledBy e = [] ∨ ∃ a b t, o.world.store.assets.get? a.id = some a ∧
        (o.handle e).world.store.assets.get? a.id = some b ∧ o.Settles (o.handle e) a b t ∧
        o.settledBy e = [b]) ∧
      ∀ m : Measurement, m.isSettlement = true → (o.handle e).world.measurements.count m =
        o.world.measurements.count m + ((o.settledBy e).flatMap settlementCounts).count m := by
  have hs' := hs.handle e hd
  obtain ⟨ops, he, hh⟩ := handle_cases hs e hd
  rcases settles_cases hs he hd (hh.settling hs.world.wellFormed) with
    ⟨hassets, _, hnone⟩ | ⟨a, b, t, ha, hb, hsettles, hcounts⟩
  · have hempty : o.settledBy e = [] := by
      refine List.eq_nil_iff_forall_not_mem.mpr fun b hb => ?_
      obtain ⟨hb, a, ha, hne⟩ := (mem_settledBy_iff hs').mp hb
      exact hne (hassets _ a b ha hb).symm
    refine ⟨Or.inl hempty, fun m hm => ?_⟩
    rw [he.settlements m hm, hnone, hempty]
    rfl
  · obtain ⟨_, hbecomes, _⟩ := he.asset_of_some hd hs.world ha hb
    have hid : b.id = a.id := hs'.world.wellFormed.asset_id _ b hb
    -- the statuses of all other assets stay, and no asset is stored twice
    have hone : o.settledBy e = [b] := by
      refine filter_eq_singleton (List.Nodup.of_map _ hs'.world.wellFormed.ids_nodup) fun c => ?_
      refine (mem_settledBy_iff hs').trans ⟨?_, ?_⟩
      · rintro ⟨hc, d, hd', hne⟩
        by_cases hx : c.id = a.id
        · rw [hx, hb] at hc
          cases hc
          rfl
        · exact absurd (hsettles.others _ d c hd' hx hc).symm hne
      · rintro rfl
        rw [hid]
        refine ⟨hb, a, ha, ?_⟩
        rw [hsettles.pending, hsettles.status]
        intro hpending
        have hfinal := hsettles.transition.status
        rw [← hpending] at hfinal
        cases hfinal
    refine ⟨Or.inr ⟨a, b, t, ha, hb, hsettles, hone⟩, fun m hm => ?_⟩
    rw [he.settlements m hm, hcounts, hone, List.flatMap_singleton, settlementCounts,
      hsettles.status, hbecomes.same]

/-! ## Runs -/

/-- The assets that are settled in a run, in order. -/
def settlements (o : Orchestrator) : List Event → List Asset
  | [] => []
  | e :: es => o.settledBy e ++ (o.handle e).settlements es

/-- What is counted in a run is what is settled. -/
theorem count_after (hs : o.Sound) {es : List Event} (hd : (o.after es).world.ids.Distinct)
    {m : Measurement} (hm : m.isSettlement = true) : (o.after es).world.measurements.count m =
      o.world.measurements.count m + ((o.settlements es).flatMap settlementCounts).count m := by
  induction es generalizing o with
  | nil => rfl
  | cons e es ih =>
    rw [after_cons] at hd ⊢
    have hd' := (after_extends (o.handle e) es).distinct hd
    rw [ih (hs.handle e hd') hd, (settledBy_cases hs e hd').2 m hm, settlements,
      List.flatMap_append, List.count_append, Nat.add_assoc]

/-- What is going to be settled is pending, or is not there yet. -/
theorem pending_of_mem_settlements (hs : o.Sound) {es : List Event}
    (hd : (o.after es).world.ids.Distinct) {b : Asset} (hb : b ∈ o.settlements es)
    (hx : o.world.ids.HasDrawnAsset b.id) :
    ∃ a, o.world.store.assets.get? b.id = some a ∧ a.status = .pending := by
  induction es generalizing o with
  | nil => cases hb
  | cons e es ih =>
    rw [after_cons] at hd
    have hd' := (after_extends (o.handle e) es).distinct hd
    have hs' := hs.handle e hd'
    rcases List.mem_append.mp hb with hb | hb
    · rcases (settledBy_cases hs e hd').1 with hnone | ⟨a, c, t, ha, hc, hsettles, hone⟩
      · rw [hnone] at hb
        cases hb
      · rw [hone, List.mem_singleton] at hb
        rw [hb, hs'.world.wellFormed.asset_id _ c hc]
        exact ⟨a, ha, hsettles.pending⟩
    · obtain ⟨ops, he, _⟩ := handle_cases hs e hd'
      obtain ⟨c, hc, hpending⟩ := ih hs' hd hb (he.ids.hasDrawnAsset hx)
      -- it cannot have been filed by the event, for its id was drawn before
      cases ha : o.world.store.assets.get? b.id with
      | none => exact absurd hx (he.not_hasDrawnAsset hd' hs.world ha hc)
      | some a =>
        refine ⟨a, rfl, ?_⟩
        have hbecomes := (he.asset_of_some hd' hs.world ha hc).2.1
        cases hfinal : a.status.isTerminal with
        | false => exact Status.isTerminal_eq_false_iff.mp hfinal
        | true =>
          rw [← hbecomes.final hfinal, hpending] at hfinal
          cases hfinal

/-- No asset is settled twice. -/
theorem settlements_nodup (hs : o.Sound) {es : List Event}
    (hd : (o.after es).world.ids.Distinct) : ((o.settlements es).map (·.id)).Nodup := by
  induction es generalizing o with
  | nil => exact List.nodup_nil
  | cons e es ih =>
    rw [after_cons] at hd
    have hd' := (after_extends (o.handle e) es).distinct hd
    have hs' := hs.handle e hd'
    rw [settlements]
    rcases (settledBy_cases hs e hd').1 with hnone | ⟨a, b, t, ha, hb, hsettles, hone⟩
    · rw [hnone]
      exact ih hs' hd
    · rw [hone, List.singleton_append, List.map_cons, List.nodup_cons]
      refine ⟨?_, ih hs' hd⟩
      intro hmem
      obtain ⟨c, hc, hid⟩ := List.mem_map.mp hmem
      -- it is final by now, and so is not going to be settled
      have hb' : (o.handle e).world.store.assets.get? c.id = some b := by
        rw [hid, hs'.world.wellFormed.asset_id _ b hb]
        exact hb
      obtain ⟨d, hd₁, hpending⟩ :=
        pending_of_mem_settlements hs' hd hc (hs'.world.asset _ b hb')
      rw [hb'] at hd₁
      cases hd₁
      have hfinal := hsettles.transition.status
      rw [← hsettles.status, hpending] at hfinal
      cases hfinal

/-! ## Counters -/

theorem count_assetSettled (bs : List Asset) (type : AssetType) (status : Status) :
    (bs.flatMap settlementCounts).count (.assetSettled type status) =
      bs.countP fun b => b.type = type ∧ b.status = status := by
  induction bs with
  | nil => rfl
  | cons b bs ih =>
    rw [List.flatMap_cons, List.count_append, ih, List.countP_cons, Nat.add_comm]
    congr 1
    have hversion : (if b.isDefault then [Measurement.versionSettled b.status] else []).count
        (.assetSettled type status) = 0 := by
      split <;> rfl
    rw [settlementCounts, List.count_cons, hversion, Nat.zero_add]
    simp only [beq_iff_eq, Measurement.assetSettled.injEq, decide_eq_true_eq]

theorem count_versionSettled (bs : List Asset) (status : Status) :
    (bs.flatMap settlementCounts).count (.versionSettled status) =
      bs.countP fun b => b.isDefault ∧ b.status = status := by
  induction bs with
  | nil => rfl
  | cons b bs ih =>
    rw [List.flatMap_cons, List.count_append, ih, List.countP_cons, Nat.add_comm]
    congr 1
    have hasset : (Measurement.assetSettled b.type b.status == .versionSettled status) = false :=
      rfl
    rw [settlementCounts, List.count_cons, hasset]
    by_cases hdefault : b.isDefault = true
    · rw [if_pos hdefault, List.count_singleton]
      simp [hdefault]
    · rw [if_neg hdefault]
      simp [hdefault]

/-! ## The law -/

/-- In a run assets are settled once, and versions with them. -/
structure SettlesOnce (o : Orchestrator) (es : List Event) : Prop where
  /-- Every version has one default asset, and its status. -/
  defaultsLead : (o.after es).world.store.DefaultsLead
  /-- An asset that appears is new. -/
  filed : ∀ es₁ e es₂ x b, es = es₁ ++ e :: es₂ →
    (o.after es₁).world.store.assets.get? x = none →
    (o.after (es₁ ++ [e])).world.store.assets.get? x = some b → b.IsNew
  /-- The status of an asset changes only where the asset is settled. -/
  asset : ∀ es₁ e es₂ x a b, es = es₁ ++ e :: es₂ →
    (o.after es₁).world.store.assets.get? x = some a →
    (o.after (es₁ ++ [e])).world.store.assets.get? x = some b → a.status ≠ b.status →
    ∃ t, (o.after es₁).Settles (o.after (es₁ ++ [e])) a b t
  /-- The status of a version changes only where its default asset is settled. -/
  version : ∀ es₁ e es₂ k v v', es = es₁ ++ e :: es₂ →
    (o.after es₁).world.store.versions.get? k = some v →
    (o.after (es₁ ++ [e])).world.store.versions.get? k = some v' → v.status ≠ v'.status →
    ∃ a b t, a.isDefault = true ∧ a.key = k ∧
      (o.after es₁).world.store.assets.get? a.id = some a ∧
      (o.after (es₁ ++ [e])).world.store.assets.get? a.id = some b ∧
      (o.after es₁).Settles (o.after (es₁ ++ [e])) a b t
  /-- A final status stays, of the asset and of the version that has it as its default asset. -/
  final : ∀ es₁ es₂ x a b, es = es₁ ++ es₂ →
    (o.after es₁).world.store.assets.get? x = some a → a.status.isTerminal = true →
    (o.after es).world.store.assets.get? x = some b → b.status = a.status ∧
      (a.isDefault = true → ∀ v, (o.after es).world.store.versions.get? a.key = some v →
        v.status = a.status)
  /-- No asset is settled twice. -/
  once : ((o.settlements es).map (·.id)).Nodup
  assetsCounted : ∀ type status,
    (o.after es).world.measurements.count (.assetSettled type status) =
      (o.settlements es).countP fun b => b.type = type ∧ b.status = status
  versionsCounted : ∀ status,
    (o.after es).world.measurements.count (.versionSettled status) =
      (o.settlements es).countP fun b => b.isDefault ∧ b.status = status

/-- What one event does to statuses, at some point of a run. -/
theorem settles_at {es es₁ es₂ : List Event} {e : Event} (hs : o.Sound)
    (hd : (o.after es).world.ids.Distinct) (hes : es = es₁ ++ e :: es₂) :
    (o.after es₁).Sound ∧ ((o.after es₁).handle e).world.ids.Distinct ∧
      ∃ ops, (o.after es₁).world.Evolves ops ((o.after es₁).handle e).world ∧
        (o.after es₁).Handles e ops ((o.after es₁).handle e) := by
  rw [hes, after_append, after_cons] at hd
  have hd' := (after_extends ((o.after es₁).handle e) es₂).distinct hd
  have hs' : (o.after es₁).Sound := hs.after (((o.after es₁).handle_extends e).distinct hd')
  exact ⟨hs', hd', handle_cases hs' e hd'⟩

/-- Assets are settled once in every run, with the versions that follow them. -/
theorem initial_settlesOnce {settings : Settings} {now : Timestamp} {ids : IdSupply}
    {es : List Event} (hd : ((initial settings now ids).after es).world.ids.Distinct) :
    (initial settings now ids).SettlesOnce es := by
  have hs := initial_sound settings now ids
  have hend := hs.after hd
  constructor
  case defaultsLead => exact hend.world.defaultsLead
  case filed =>
    intro es₁ e es₂ x b hes hnone hb
    obtain ⟨hs', hd', ops, he, hh⟩ := settles_at hs hd hes
    rw [after_concat] at hb
    exact isNew_of_none hs' he (hh.settling hs'.world.wellFormed) hnone hb
  case asset =>
    intro es₁ e es₂ x a b hes ha hb hne
    obtain ⟨hs', hd', ops, he, hh⟩ := settles_at hs hd hes
    rw [after_concat] at hb ⊢
    rcases settles_cases hs' he hd' (hh.settling hs'.world.wellFormed) with
      ⟨hassets, _⟩ | ⟨c, d, t, hc, hd₁, hsettles, _⟩
    · exact absurd (hassets x a b ha hb).symm hne
    · by_cases hx : x = c.id
      · rw [hx, hc] at ha
        rw [hx, hd₁] at hb
        cases ha
        cases hb
        exact ⟨t, hsettles⟩
      · exact absurd (hsettles.others x a b ha hx hb).symm hne
  case version =>
    intro es₁ e es₂ k v v' hes hv hv' hne
    obtain ⟨hs', hd', ops, he, hh⟩ := settles_at hs hd hes
    rw [after_concat] at hv' ⊢
    rcases settles_cases hs' he hd' (hh.settling hs'.world.wellFormed) with
      ⟨_, hversions, _⟩ | ⟨c, d, t, hc, hd₁, hsettles, _⟩
    · exact absurd (hversions k v v' hv hv').symm hne
    · obtain ⟨u, hu, hfollows⟩ := hsettles.versions k v hv
      rw [hv'] at hu
      cases hu
      split at hfollows
      · next h => exact ⟨c, d, t, h.1, h.2, hc, hd₁, hsettles⟩
      · exact absurd hfollows.1.symm hne
  case final =>
    intro es₁ es₂ x a b hes ha hfinal hb
    have hs₁ : ((initial settings now ids).after es₁).Sound := by
      refine hs.after ((after_extends _ es₂).distinct ?_)
      rw [← after_append, ← hes]
      exact hd
    have hbecomes : a.Becomes b := by
      rw [hes, after_append] at hd hb
      exact becomes_after hs₁ hd ha hb
    refine ⟨hbecomes.final hfinal, fun hdefault v hv => ?_⟩
    rw [← hbecomes.final hfinal]
    refine hend.world.defaultsLead.status x b v hb ?_ ?_
    · rw [hbecomes.same]
      exact hdefault
    · rw [hbecomes.same]
      exact hv
  case once => exact settlements_nodup hs hd
  case assetsCounted =>
    intro type status
    rw [count_after hs hd rfl, count_assetSettled]
    exact Nat.zero_add _
  case versionsCounted =>
    intro status
    rw [count_after hs hd rfl, count_versionSettled]
    exact Nat.zero_add _

/-! ## A run -/

namespace Sample

/-- Ids in a fixed order. -/
def ids : IdSupply where
  asset := fun n => ⟨⟨BitVec.ofNat 128 n⟩⟩
  task := fun n =>
    (TaskId.ofText (String.ofList (List.replicate (n + 1) 't'))).toOption.getD ⟨"task", by decide⟩

def start : Orchestrator := initial .standard ⟨0, 0⟩ ids

def datasetFiled : List Event :=
  [.command (.createDataset ⟨"d", true, none, .null, [], ⟨0, 0⟩⟩)]

/-- A version is created from a table; three jobs follow. -/
def createTable : Command :=
  .createVersion {
    key := ⟨"d", "v1"⟩
    sourceType := "table"
    options := .object [("source_uri", .array [.string "s3://b/a.csv"])] }

/-- The pipeline of the table, from its first job to its end. -/
def tableSubmitted : List Event := List.replicate 6 (.advance 0)

/-- A report that is taken up as the piece with a number. -/
def delivered (piece task : Nat) (p : Progress) : List Event :=
  [.report (ids.task task) (.note ⟨0, 0⟩ p "reported"), .advance piece, .advance piece]

/-- The jobs of the table are submitted and succeed. -/
def tableSaved : List Event :=
  tableSubmitted ++ delivered 1 0 .success ++ delivered 2 2 .success ++ delivered 3 1 .success

end Sample

set_option maxRecDepth 100000 in
theorem tableSaved_settlesOnce : ∃ es, es = Sample.datasetFiled ++ [.command Sample.createTable] ++
    Sample.tableSaved ∧ (Sample.start.after es).world.ids.Distinct ∧
      (Sample.start.settlements es).map (·.status) = [.saved] ∧ Sample.start.SettlesOnce es := by
  refine ⟨_, rfl, ?_⟩
  have hd : (Sample.start.after (Sample.datasetFiled ++ [.command Sample.createTable] ++
      Sample.tableSaved)).world.ids.Distinct := by decide +kernel
  refine ⟨hd, ?_, initial_settlesOnce hd⟩
  decide +kernel

end GeoAssets.Orchestrator
