import GeoAssets.Lifecycle.Settlement
import GeoAssets.Proofs.Lifecycle.World

/-!
# What settling does

To settle an asset is to commit a transition, if the asset is pending, and nothing otherwise
(`World.Settlement`). If the tile service cannot be told, a second entry in the log of the asset
says so. Whether tasks decide over an asset is decided on the stored asset (`World.Deciding`).
-/

namespace GeoAssets

/-- An outcome that may be committed for an asset: it is final, and the version takes part if the
asset is the default one. -/
structure Outcome.Fits (o : Outcome) (a : Asset) : Prop where
  status : o.status.isTerminal = true
  settlesVersion : o.settlesVersion = a.isDefault

theorem Outcome.saved_fits (a : Asset) (e : LogEntry) : (Outcome.saved a e).Fits a := ⟨rfl, rfl⟩

theorem Outcome.failed_fits (a : Asset) (e : LogEntry) : (Outcome.failed a e).Fits a := ⟨rfl, rfl⟩

theorem Outcome.ofTileCache_fits (time : Timestamp) (a : Asset) (table : Option Asset) :
    (Outcome.ofTileCache time a table).Fits a := by
  unfold Outcome.ofTileCache
  split
  · exact saved_fits a _
  · exact failed_fits a _

/-- Tasks decide for an outcome that fits the asset. -/
theorem Decision.fits_of_finish {time : Timestamp} {a : Asset} {ts : List Task} {o : Outcome}
    (h : ofTasks time a ts = .finish o) : o.Fits a := by
  unfold ofTasks at h
  split at h
  · cases h
  split at h
  · cases h
    exact Outcome.failed_fits a _
  split at h
  · cases h
  split at h
  · cases h
    exact Outcome.saved_fits a _
  · cases h

namespace World

/-- What is done to the store when an asset is settled. -/
inductive Settlement (w : World) (x : AssetId) (o : Outcome) : List Store.Operation → Prop where
  | commit {a : Asset} {t : Transition} (ha : w.store.assets.get? x = some a)
    (hpending : a.status = .pending) (ht : t.Settles a) (hstatus : t.status = o.status)
    (hentry : t.entry = o.entry) : Settlement w x o [.commit a t]
  /-- The tile service could not be told. -/
  | unserved {a : Asset} {t : Transition} {e : Error} (ha : w.store.assets.get? x = some a)
    (hpending : a.status = .pending) (ht : t.Settles a) (hstatus : t.status = o.status)
    (hentry : t.entry = o.entry) (hredeploys : o.redeploysTiles = true)
    (hdown : w.services.tiles.redeploy = .error e) :
    Settlement w x o [.commit a t, .appendAssetLog x (w.redeployFailedEntry e)]
  | nothing (h : ∀ a, w.store.assets.get? x = some a → a.status.isTerminal = true) :
    Settlement w x o []

/-- What is done to the store when the tasks of an asset are looked at. -/
inductive Deciding (w : World) (x : AssetId) : List Store.Operation → Prop where
  | finish {a : Asset} {o : Outcome} {ops : List Store.Operation}
    (ha : w.store.assets.get? x = some a)
    (hd : Decision.ofTasks w.now a (w.store.tasksOf x) = .finish o)
    (hs : w.Settlement x o ops) : Deciding w x ops
  | wait (h : ∀ a, w.store.assets.get? x = some a →
    ∀ o, Decision.ofTasks w.now a (w.store.tasksOf x) ≠ .finish o) : Deciding w x []

variable {w w' : World}

theorem measureSettled_store (w : World) (a : Asset) (v : Option Version) :
    (w.measureSettled a v).store = w.store := by
  cases v <;> rfl

theorem measureSettled_ids (w : World) (a : Asset) (v : Option Version) :
    (w.measureSettled a v).ids = w.ids := by
  cases v <;> rfl

theorem measureSettled_services (w : World) (a : Asset) (v : Option Version) :
    (w.measureSettled a v).services = w.services := by
  cases v <;> rfl

theorem measureSettled_now (w : World) (a : Asset) (v : Option Version) :
    (w.measureSettled a v).now = w.now := by
  cases v <;> rfl

/-- A committed transition is counted, and so is the version that followed it. -/
theorem evolves_commit {a : Asset} {t : Transition} {s' : Store} {v : Option Version}
    (h : w.store.Performs (.commit a t) s')
    (hv : v.map (·.status) = t.version.map (·.1)) :
    w.Evolves [.commit a t] (({ w with store := s' } : World).measureSettled (t.applyAsset a) v)
    where
  ids := by
    rw [measureSettled_ids]
    exact .refl w.ids
  store := by
    rw [measureSettled_store]
    exact .single h
  files := fun op hop b hb => by
    rw [List.mem_singleton.mp hop] at hb
    cases hb
  records := fun op hop u hu => by
    rw [List.mem_singleton.mp hop] at hu
    cases hu
  settlements := fun m _ => by
    rw [List.flatMap_singleton, Store.Operation.settlements]
    cases v with
    | none =>
      have ht : t.version = none := Option.map_eq_none_iff.mp hv.symm
      rw [ht]
      show (.assetSettled a.type t.status :: w.measurements).count m =
        _ + [.assetSettled a.type t.status].count m
      rw [List.count_cons, List.count_singleton]
    | some u =>
      obtain ⟨change, hver, hchange⟩ := Option.map_eq_some_iff.mp hv.symm
      have hu : u.status = change.1 := hchange.symm
      rw [hver]
      show (.versionSettled u.status :: .assetSettled a.type t.status :: w.measurements).count m =
        _ + [.assetSettled a.type t.status, .versionSettled change.1].count m
      rw [hu, List.count_cons, List.count_cons, List.count_cons, List.count_singleton]
      omega

theorem transition_settles {a b : Asset} {o : Outcome} (ho : o.Fits a) (hid : b.id = a.id)
    (hdefault : b.isDefault = a.isDefault) (fields : Option (List Field)) :
    (o.transition a fields).Settles b where
  asset := hid.symm
  status := ho.status
  version := by
    rw [hdefault, ← ho.settlesVersion]
    rfl

/-- The tile service is told, or the asset's log says that it was not. -/
theorem redeployTiles_cases {x : AssetId} {a : Asset} (ha : w.store.assets.get? x = some a) :
    (w.services.tiles.isDown = false ∧ w.Evolves [] (w.redeployTiles x)) ∨
      ∃ e, w.services.tiles.redeploy = .error e ∧
        w.Evolves [.appendAssetLog x (w.redeployFailedEntry e)] (w.redeployTiles x) := by
  unfold redeployTiles
  cases hr : w.services.tiles.redeploy with
  | ok tiles =>
    left
    refine ⟨?_, .of_eq rfl rfl rfl⟩
    simp only [TileService.redeploy, bind_eq_ok_iff, require_eq_ok_iff, Bool.not_eq_true'] at hr
    obtain ⟨_, hup, _⟩ := hr
    exact hup
  | error e =>
    right
    refine ⟨e, rfl, ?_⟩
    obtain ⟨s', hs⟩ : ∃ s', w.store.appendAssetLog x (w.redeployFailedEntry e) = .ok s' := by
      unfold Store.appendAssetLog Store.updateAsset Store.asset
      rw [ha]
      exact ⟨_, rfl⟩
    simp only [hs]
    exact .perform (.appendAssetLog hs) rfl rfl rfl

/-- A pending asset is settled. -/
theorem settle_pending_cases {a b : Asset} {o : Outcome} {r : Option Settled}
    (hw : w.store.WellFormed) (ho : o.Fits a) (hb : w.store.assets.get? a.id = some b)
    (hdefault : b.isDefault = a.isDefault) (hpending : b.status = .pending)
    (h : w.settle a o = (r, w')) : ∃ ops, w.Settlement a.id o ops ∧ w.Evolves ops w' := by
  set t := o.transition a (w.fieldsFor a o) with ht
  have hsettles : t.Settles b := transition_settles ho (hw.asset_id _ b hb) hdefault _
  obtain ⟨s', hc, r'⟩ :=
    Store.commit_of_pending (t := t) hb (Status.isTerminal_eq_false_iff.mpr hpending)
  unfold settle at h
  rw [← ht, hc] at h
  dsimp only at h
  have hperf : w.store.Performs (.commit b t) s' := .commit hb hpending hsettles hc
  -- the version of the asset is there, and follows if the asset is the default one
  obtain ⟨v, hv⟩ := hw.version_of_asset _ b hb
  have hfollows : (t.version.bind fun change =>
      (w.store.versions.get? b.key).map (Transition.applyVersion change)).map (·.status) =
        t.version.map (·.1) := by
    rw [hv]
    cases t.version <;> rfl
  have hevolves := evolves_commit hperf hfollows
  by_cases hredeploys : o.redeploysTiles = true
  · rw [if_pos hredeploys] at h
    obtain ⟨rfl, rfl⟩ := Prod.mk.inj h
    have hid : (t.applyAsset b).id = t.asset := hsettles.asset.symm
    have hthere : ∀ v, (measureSettled { w with store := s' } (t.applyAsset b)
        v).store.assets.get? t.asset = some (t.applyAsset b) := by
      intro v
      rw [measureSettled_store, r'.assets]
      show (w.store.assets.get? a.id).map (Store.only a.id t.applyAsset a.id) = _
      rw [hb, Option.map_some, Store.only_self]
    rw [hid]
    rcases redeployTiles_cases (hthere _) with ⟨_, hq⟩ | ⟨e, hdown, hq⟩
    · exact ⟨_, .commit hb hpending hsettles rfl rfl, hevolves.trans hq⟩
    · rw [measureSettled_services] at hdown
      rw [redeployFailedEntry, measureSettled_now] at hq
      exact ⟨_, .unserved hb hpending hsettles rfl rfl hredeploys hdown, hevolves.trans hq⟩
  · rw [if_neg hredeploys] at h
    cases h
    exact ⟨_, .commit hb hpending hsettles rfl rfl, hevolves⟩

/-- A pending asset is settled; an asset that is not pending, or not there, stays. -/
theorem settle_cases {a : Asset} {o : Outcome} {r : Option Settled} (hw : w.store.WellFormed)
    (ho : o.Fits a)
    (hcopy : ∀ b, w.store.assets.get? a.id = some b → b.isDefault = a.isDefault)
    (h : w.settle a o = (r, w')) :
    ∃ ops, w.Settlement a.id o ops ∧ w.Evolves ops w' := by
  cases hb : w.store.assets.get? a.id with
  | none =>
    unfold settle Store.commit Outcome.transition at h
    rw [hb] at h
    cases h
    refine ⟨[], .nothing ?_, .refl w⟩
    intro b hb'
    rw [hb] at hb'
    cases hb'
  | some b =>
    cases hterminal : b.status.isTerminal with
    | true =>
      unfold settle Store.commit Outcome.transition at h
      rw [hb] at h
      simp only [hterminal, if_true] at h
      cases h
      refine ⟨[], .nothing ?_, .refl w⟩
      intro b' hb'
      rw [hb] at hb'
      cases hb'
      exact hterminal
    | false =>
      exact settle_pending_cases hw ho hb (hcopy b hb)
        (Status.isTerminal_eq_false_iff.mp hterminal) h

theorem settleByTasks_cases {x : AssetId} {r : Option Settled} (hw : w.store.WellFormed)
    (h : w.settleByTasks x = (r, w')) : ∃ ops, w.Deciding x ops ∧ w.Evolves ops w' := by
  unfold settleByTasks at h
  cases ha : w.store.assets.get? x with
  | none =>
    rw [ha] at h
    cases h
    refine ⟨[], .wait ?_, .refl w⟩
    intro a ha'
    rw [ha] at ha'
    cases ha'
  | some a =>
    rw [ha] at h
    dsimp only at h
    split at h
    · next o hd =>
      have hid : a.id = x := hw.asset_id x a ha
      have hcopy : ∀ b, w.store.assets.get? a.id = some b → b.isDefault = a.isDefault := by
        intro b hb
        rw [hid, ha] at hb
        cases hb
        rfl
      obtain ⟨ops, hs, he⟩ := settle_cases hw (Decision.fits_of_finish hd) hcopy h
      rw [hid] at hs
      exact ⟨ops, .finish ha hd hs, he⟩
    all_goals
      next hd =>
      cases h
      refine ⟨[], .wait ?_, .refl w⟩
      intro b hb o
      rw [ha] at hb
      cases hb
      rw [hd]
      intro he
      cases he

end World

end GeoAssets
