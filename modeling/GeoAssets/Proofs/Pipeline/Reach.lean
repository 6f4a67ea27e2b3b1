import GeoAssets.Lifecycle.Requests
import GeoAssets.Proofs.Pipeline.Accepted

/-!
# How far a report reaches

A report adds an entry to the log of a task and may settle the asset of the task. The version of the
asset may follow it, and a tile cache of the version may be filed and settled in turn. Whatever of
this happens, no other record changes and no job is handed to the cluster: each part of the work
reaches an asset, its version and a tile cache at most (`World.Reaches`), and so do several parts in
a row (`World.Reaches.trans`).
-/

namespace GeoAssets

/-! ## Records -/

/-- What becomes of an asset that is settled: its status and its fields may change, and its log
grows. -/
structure Asset.SettlesTo (a b : Asset) : Prop where
  same : b = { a with
    status := b.status
    log := b.log
    metadata := { a.metadata with fields := b.metadata.fields } }
  log : a.log <+: b.log

/-- What becomes of a version that follows an asset: its status may change, and its log grows. -/
structure Version.SettlesTo (v u : Version) : Prop where
  same : u = { v with status := u.status, log := u.log }
  log : v.log <+: u.log

namespace Asset.SettlesTo

variable {a b c : Asset}

theorem refl (a : Asset) : a.SettlesTo a := ⟨rfl, List.prefix_refl _⟩

theorem trans (h : a.SettlesTo b) (h' : b.SettlesTo c) : a.SettlesTo c where
  same := by
    rw [h'.same, h.same]
  log := h.log.trans h'.log

theorem applyAsset (t : Transition) (a : Asset) : a.SettlesTo (t.applyAsset a) :=
  ⟨rfl, List.prefix_append _ _⟩

theorem note (a : Asset) (e : LogEntry) : a.SettlesTo { a with log := a.log ++ [e] } :=
  ⟨rfl, List.prefix_append _ _⟩

theorem id (h : a.SettlesTo b) : b.id = a.id := by rw [h.same]

theorem key (h : a.SettlesTo b) : b.key = a.key := by rw [h.same]

theorem uri (h : a.SettlesTo b) : b.uri = a.uri := by rw [h.same]

theorem type (h : a.SettlesTo b) : b.type = a.type := by rw [h.same]

theorem isDefault (h : a.SettlesTo b) : b.isDefault = a.isDefault := by rw [h.same]

end Asset.SettlesTo

namespace Version.SettlesTo

variable {v u : Version}

theorem refl (v : Version) : v.SettlesTo v := ⟨rfl, List.prefix_refl _⟩

theorem trans {w : Version} (h : v.SettlesTo u) (h' : u.SettlesTo w) : v.SettlesTo w where
  same := by
    rw [h'.same, h.same]
  log := h.log.trans h'.log

theorem applyVersion (change : Status × LogEntry) (v : Version) :
    v.SettlesTo (Transition.applyVersion change v) :=
  ⟨rfl, List.prefix_append _ _⟩

theorem note (v : Version) (e : LogEntry) : v.SettlesTo { v with log := v.log ++ [e] } :=
  ⟨rfl, List.prefix_append _ _⟩

theorem key (h : v.SettlesTo u) : u.key = v.key := by rw [h.same]

end Version.SettlesTo

/-! ## Stores -/

namespace Store

/-- The store with other records in the places of an asset and of a version, and with a new asset,
if there is one. -/
def put (s : Store) (a : Asset) (v : Version) (new? : Option Asset) : Store :=
  { s with
    assets := new?.elim (s.assets.insert a.id a) fun c => (s.assets.insert a.id a).insert c.id c
    versions := s.versions.insert v.key v
    places := new?.elim s.places fun c => s.places.insert c.uri c.id }

variable {s : Store} {a b : Asset} {v u : Version} {new? : Option Asset}

/-- Putting records where they stand changes nothing. -/
theorem put_self (ha : s.assets.get? a.id = some a) (hv : s.versions.get? v.key = some v) :
    s.put a v none = s := by
  simp only [put, Option.elim_none, Directory.insert_of_get? ha, Directory.insert_of_get? hv]

theorem asset_of_put : (s.put a v none).assets.get? a.id = some a :=
  Directory.get?_insert_self _ _ _

theorem version_of_put : (s.put a v new?).versions.get? v.key = some v :=
  Directory.get?_insert_self _ _ _

theorem asset_of_put_of_ne {x : AssetId} (hx : x ≠ a.id) (hnew : ∀ c ∈ new?, x ≠ c.id) :
    (s.put a v new?).assets.get? x = s.assets.get? x := by
  have hold : (s.assets.insert a.id a).get? x = s.assets.get? x :=
    Directory.get?_insert_of_ne hx.symm _ _
  cases new? with
  | none => exact hold
  | some c => exact (Directory.get?_insert_of_ne (hnew c rfl).symm _ _).trans hold

/-- A new asset is filed after the others. -/
theorem put_some (ha : s.assets.get? a.id = some a) (hv : s.versions.get? v.key = some v)
    (c : Asset) : s.put a v (some c) = s.fileAsset c := by
  simp only [put, Option.elim_some, fileAsset, Directory.insert_of_get? ha,
    Directory.insert_of_get? hv]

/-- What is put in the same places later is kept. -/
theorem put_put (ha : b.id = a.id) (hv : u.key = v.key) :
    (s.put a v none).put b u new? = s.put b u new? := by
  have hassets : (s.assets.insert a.id a).insert b.id b = s.assets.insert b.id b := by
    rw [ha, Directory.insert_insert]
  have hversions : (s.versions.insert v.key v).insert u.key u = s.versions.insert u.key u := by
    rw [hv, Directory.insert_insert]
  cases new? with
  | none => simp only [put, Option.elim_none, hassets, hversions]
  | some c => simp only [put, Option.elim_none, Option.elim_some, hassets, hversions]

theorem updateAsset_eq {change : Asset → Asset} (ha : s.assets.get? a.id = some a)
    (hv : s.versions.get? v.key = some v) (hid : (change a).id = a.id) :
    s.updateAsset a.id change = .ok (s.put (change a) v none) := by
  have hput : s.put (change a) v none = { s with assets := s.assets.insert a.id (change a) } := by
    simp only [put, Option.elim_none, hid, Directory.insert_of_get? hv]
  rw [updateAsset, Store.asset, ha, hput]
  rfl

theorem appendVersionLog_eq (ha : s.assets.get? a.id = some a)
    (hv : s.versions.get? v.key = some v) (e : LogEntry) :
    s.appendVersionLog v.key e = .ok (s.put a { v with log := v.log ++ [e] } none) := by
  have hput : s.put a { v with log := v.log ++ [e] } none =
      { s with versions := s.versions.insert v.key { v with log := v.log ++ [e] } } := by
    simp only [put, Option.elim_none, Directory.insert_of_get? ha]
  rw [appendVersionLog, Store.version, hv, hput]
  rfl

/-- A new asset that is put in its place again is filed as it is then. -/
theorem put_filed {c d : Asset} (hid : d.id = c.id) (huri : d.uri = c.uri)
    (hv : s.versions.get? v.key = some v) :
    (s.fileAsset c).put d v none = s.fileAsset d := by
  simp only [put, fileAsset, Option.elim_none, hid, huri, Directory.insert_insert,
    Directory.insert_of_get? hv]

/-- A commit changes the asset and the version that follows it. -/
theorem commit_eq {t : Transition} (ha : s.assets.get? t.asset = some a) (hid : a.id = t.asset)
    (hv : s.versions.get? a.key = some v) (hkey : v.key = a.key) (hpending : a.status = .pending) :
    ∃ v?, s.commit t = (.applied (t.applyAsset a) v?,
      s.put (t.applyAsset a) (t.version.elim v (Transition.applyVersion · v)) none) := by
  have hopen : a.status.isTerminal = false := Status.isTerminal_eq_false_iff.mpr hpending
  rw [← hkey] at hv
  have hput : ∀ u : Version, u.key = v.key → s.put (t.applyAsset a) u none = { s with
      assets := s.assets.insert t.asset (t.applyAsset a)
      versions := s.versions.insert v.key u } := by
    intro u hu
    rw [← hid, ← hu]
    rfl
  rw [commit, ha]
  simp only [hopen, Bool.false_eq_true, if_false]
  rw [show (t.applyAsset a).key = v.key from hkey.symm, hv]
  cases t.version with
  | none =>
    refine ⟨none, ?_⟩
    rw [Option.elim_none, hput v rfl, Directory.insert_of_get? hv]
  | some change =>
    refine ⟨some (Transition.applyVersion change v), ?_⟩
    rw [Option.elim_some, hput (Transition.applyVersion change v) rfl]

end Store

/-! ## What settling reaches -/

namespace World

/-- A new tile cache of a version. -/
structure CachesTiles (w : World) (key : VersionKey) (c : Asset) : Prop where
  type : c.type = .dynamicVectorTileCache
  key : c.key = key
  isDefault : c.isDefault = false
  id : w.store.assets.get? c.id = none
  uri : w.store.places.get? c.uri = none

/-- What is changed: an asset, its version, and a new tile cache of the version, if there is one. -/
structure Reaches (w : World) (a : Asset) (v : Version) (b : Asset) (u : Version)
    (cache? : Option Asset) (w' : World) : Prop where
  asset : a.SettlesTo b
  version : v.SettlesTo u
  cache : ∀ c ∈ cache?, w.CachesTiles v.key c
  store : w'.store = w.store.put b u cache?
  cluster : w'.cluster = w.cluster

variable {w w₁ w' : World} {a b c : Asset} {v u u' : Version} {cache? : Option Asset}

theorem Reaches.trans (h : w.Reaches a v b u none w₁) (h' : w₁.Reaches b u c u' cache? w') :
    w.Reaches a v c u' cache? w' where
  asset := h.asset.trans h'.asset
  version := h.version.trans h'.version
  cache := fun d hd => by
    have hcache := h'.cache d hd
    have hid := hcache.id
    rw [h.store] at hid
    have huri := hcache.uri
    rw [h.store] at huri
    refine ⟨hcache.type, hcache.key.trans h.version.key, hcache.isDefault, ?_, huri⟩
    change (w.store.assets.insert b.id b).get? d.id = none at hid
    rw [Directory.get?_insert] at hid
    split at hid
    · cases hid
    · exact hid
  store := by rw [h'.store, h.store, Store.put_put h'.asset.id h'.version.key]
  cluster := h'.cluster.trans h.cluster

/-- No tile cache is filed. -/
theorem Reaches.unfiled (ha : a.SettlesTo b) (hv : v.SettlesTo u)
    (hstore : w'.store = w.store.put b u none) (hcluster : w'.cluster = w.cluster) :
    w.Reaches a v b u none w' where
  asset := ha
  version := hv
  cache := fun c hc => by cases hc
  store := hstore
  cluster := hcluster

/-- Nothing is changed. -/
theorem Reaches.nothing (ha : w.store.assets.get? a.id = some a)
    (hv : w.store.versions.get? v.key = some v) : w.Reaches a v a v none w :=
  .unfiled (.refl a) (.refl v) (Store.put_self ha hv).symm rfl

theorem Reaches.asset_there (h : w.Reaches a v b u none w') :
    w'.store.assets.get? b.id = some b := by
  rw [h.store]
  exact Store.asset_of_put

theorem Reaches.version_there (h : w.Reaches a v b u cache? w') :
    w'.store.versions.get? u.key = some u := by
  rw [h.store]
  exact Store.version_of_put

/-- The tile service is told, or the log of the asset says that it was not. -/
theorem redeployTiles_reaches (ha : w.store.assets.get? a.id = some a)
    (hv : w.store.versions.get? v.key = some v) :
    ∃ b, w.Reaches a v b v none (w.redeployTiles a.id) := by
  unfold redeployTiles
  split
  · exact ⟨a, .unfiled (.refl a) (.refl v) (Store.put_self ha hv).symm rfl⟩
  · next e _ =>
    rw [Store.appendAssetLog, Store.updateAsset_eq ha hv rfl]
    exact ⟨_, .unfiled (.note a _) (.refl v) rfl rfl⟩

/-- What settling an asset reaches: the version follows only a default asset, and nothing is done
for an asset that is not pending. -/
structure Settles (w : World) (a : Asset) (v : Version) (settled : Option Settled) (b : Asset)
    (u : Version) (w' : World) : Prop extends w.Reaches a v b u none w' where
  follows : a.isDefault = false → u = v
  final : a.status ≠ .pending → b = a ∧ u = v ∧ settled = none
  key : ∀ c ∈ settled, c.asset.key = a.key

/-- Nothing is done for an asset that is not settled. -/
theorem Settles.nothing (ha : w.store.assets.get? a.id = some a)
    (hv : w.store.versions.get? v.key = some v) : w.Settles a v none a v w where
  toReaches := .nothing ha hv
  follows := fun _ => rfl
  final := fun _ => ⟨rfl, rfl, rfl⟩
  key := fun c hc => by cases hc

/-- An asset that is not pending stays as it is. -/
theorem settle_of_final {o : Outcome} (hb : w.store.assets.get? a.id = some b)
    (hfinal : b.status ≠ .pending) : w.settle a o = (none, w) := by
  have hterminal : b.status.isTerminal = true := by
    by_contra h
    exact hfinal (Status.isTerminal_eq_false_iff.mp (Bool.eq_false_iff.mpr h))
  unfold settle Store.commit Outcome.transition
  rw [hb]
  simp only [hterminal, if_true]

/-- To settle an asset is to change the asset and its version at most. -/
theorem settle_settles {o : Outcome} (hw : w.store.WellFormed) (ho : o.Fits a)
    (hb : w.store.assets.get? a.id = some b) (hdefault : b.isDefault = a.isDefault)
    (hv : w.store.versions.get? b.key = some v) :
    ∃ c u, w.Settles b v (w.settle a o).1 c u (w.settle a o).2 := by
  have hid : b.id = a.id := hw.asset_id _ b hb
  have hkey : v.key = b.key := hw.version_key _ v hv
  by_cases hpending : b.status = .pending
  swap
  · rw [settle_of_final hb hpending]
    exact ⟨b, v, .nothing (by rwa [hid]) (by rwa [hkey])⟩
  set t := o.transition a (w.fieldsFor a o) with ht
  obtain ⟨v?, hc⟩ := Store.commit_eq (t := t) hb hid hv hkey hpending
  set u := t.version.elim v (Transition.applyVersion · v) with hu
  have hfollow : v.SettlesTo u := by
    rw [hu]
    cases t.version with
    | none => exact .refl v
    | some change => exact .applyVersion change v
  have hsecond : b.isDefault = false → u = v := by
    intro hno
    rw [hdefault, ← ho.settlesVersion] at hno
    rw [hu, ht, Outcome.transition, hno]
    rfl
  -- the commit, before the tile service is told
  set w₁ := ({ w with store := w.store.put (t.applyAsset b) u none } : World).measureSettled
    (t.applyAsset b) v? with hw₁
  have hstore : w₁.store = w.store.put (t.applyAsset b) u none := measureSettled_store _ _ _
  have hcommit : w.Reaches b v (t.applyAsset b) u none w₁ :=
    .unfiled (.applyAsset t b) hfollow hstore
      (World.Permits.measureSettled (R := World.AcceptsNothing) _ _ v?)
  have hsettle : w.settle a o = (some ⟨t.applyAsset b, o.registersTileCache⟩,
      if o.redeploysTiles then w₁.redeployTiles (t.applyAsset b).id else w₁) := by
    rw [settle, ← ht, hc]
  have hrest : ∀ c w', w.Reaches b v c u none w' →
      w.Settles b v (some ⟨t.applyAsset b, o.registersTileCache⟩) c u w' := by
    intro c w' h
    refine ⟨h, hsecond, fun hfinal => absurd hpending hfinal, fun d hd => ?_⟩
    cases hd
    rfl
  rw [hsettle]
  by_cases htiles : o.redeploysTiles = true
  · rw [if_pos htiles]
    obtain ⟨c, hredeploy⟩ := redeployTiles_reaches hcommit.asset_there hcommit.version_there
    exact ⟨c, u, hrest c _ (hcommit.trans hredeploy)⟩
  · rw [if_neg htiles]
    exact ⟨_, u, hrest _ _ hcommit⟩

/-- The tasks of an asset decide over the asset and its version at most. -/
theorem settleByTasks_settles (hw : w.store.WellFormed) {x : AssetId}
    (ha : w.store.assets.get? x = some a) (hv : w.store.versions.get? a.key = some v) :
    ∃ b u, w.Settles a v (w.settleByTasks x).1 b u (w.settleByTasks x).2 := by
  have hid : a.id = x := hw.asset_id x a ha
  have hkey : v.key = a.key := hw.version_key _ v hv
  have ha' : w.store.assets.get? a.id = some a := by rwa [hid]
  unfold settleByTasks
  rw [ha]
  dsimp only
  split
  · next o hd => exact settle_settles hw (Decision.fits_of_finish hd) ha' rfl hv
  all_goals exact ⟨a, v, .nothing ha' (by rwa [hkey])⟩

end World

/-! ## What registering a tile cache reaches -/

namespace TileCache

/-- A tile cache that was made for a table is one of the version of the table. -/
theorem ofTable_caches {settings : Settings} {time : Timestamp} {id : AssetId}
    {table cache : Asset} (h : ofTable settings time id table = .ok cache) :
    cache.type = .dynamicVectorTileCache ∧ cache.key = table.key ∧ cache.isDefault = false := by
  simp only [ofTable, bind_eq_ok_iff] at h
  obtain ⟨uri, _, h⟩ := h
  cases h
  exact ⟨rfl, rfl, rfl⟩

variable {w : World} {a table : Asset} {v : Version}

/-- The tile cache of a table is filed, or nothing is changed. -/
theorem file_reaches (hw : w.store.WellFormed) (ha : w.store.assets.get? a.id = some a)
    (hv : w.store.versions.get? v.key = some v) (hkey : table.key = v.key) :
    (∃ c w', (file table).run w = (.ok c, w') ∧ w.Reaches a v a v (some c) w' ∧
      w'.store.WellFormed) ∨
    ∃ e w', (file table).run w = (.error e, w') ∧ w.Reaches a v a v none w' := by
  rcases hr : (file table).run w with ⟨r, w'⟩
  have h := hr
  unfold file at h
  rw [Flow.run_drawAssetId_bind, Flow.run_read_bind, Flow.run_read_bind] at h
  have hcluster : w'.cluster = w.cluster :=
    file_within (R := World.AcceptsNothing) table w r w' hr
  have hnothing : w'.store = w.store → w.Reaches a v a v none w' := fun he =>
    .unfiled (.refl a) (.refl v) (he.trans (Store.put_self ha hv).symm) hcluster
  rcases Flow.run_check_bind_cases h with ⟨c, hc, h⟩ | ⟨e, _, rfl, rfl⟩
  swap
  · exact Or.inr ⟨e, _, rfl, hnothing rfl⟩
  rcases Flow.run_updateStore_bind_cases h with ⟨s, hs, h⟩ | ⟨e, _, rfl, rfl⟩
  swap
  · exact Or.inr ⟨e, _, rfl, hnothing rfl⟩
  have hwell := hw.createAsset hs
  obtain ⟨_, hid, huri, _, rfl⟩ := Store.createAsset_eq_ok hs
  obtain ⟨htype, hckey, hdefault⟩ := ofTable_caches hc
  cases h
  refine Or.inl ⟨c, _, rfl, ⟨.refl a, .refl v, fun d hd => ?_, ?_, hcluster⟩, hwell⟩
  · cases hd
    exact ⟨htype, hckey.trans hkey, hdefault, hid, huri⟩
  · exact (Store.put_some ha hv c).symm

end TileCache

namespace Activity

variable {w : World} {a c : Asset} {v : Version}

/-- A tile cache is settled, and nothing else is changed: its version does not follow it. -/
theorem inspect_run (answer : Answer) (hw : w.store.WellFormed)
    (hc : w.store.assets.get? c.id = some c) (hv : w.store.versions.get? c.key = some v)
    (htype : c.type = .dynamicVectorTileCache) (hdefault : c.isDefault = false) :
    ∃ d w', (inspect c (.answer answer)).run w = (.ok answer, w') ∧
      ({ c with expectedTasks := some 0 } : Asset).SettlesTo d ∧
      w'.store = w.store.put d v none ∧ w'.cluster = w.cluster := by
  have hkey : v.key = c.key := hw.version_key _ v hv
  have hset : w.store.updateAsset c.id (fun a => { a with expectedTasks := some 0 }) =
      .ok (w.store.put { c with expectedTasks := some 0 } v none) :=
    Store.updateAsset_eq hc (by rwa [hkey]) rfl
  set w₁ : World := { w with store := w.store.put { c with expectedTasks := some 0 } v none }
    with hw₁
  set o := inspectedOutcome w c with ho
  have hinspect : (inspect c (.answer answer)).step.run w =
      (.ok (.goOn (.settle c o (.answer answer))), w₁) := by
    refine step_run_of_ok ?_
    show (inspectNow c _).run w = _
    rw [inspectNow, Flow.run_read_bind, Flow.run_updateStore_bind_ok hset]
    rfl
  have hsettle : (settle c o (.answer answer)).step.run w₁ =
      (.ok (.finished answer), (w₁.settle c o).2) := step_run_of_ok rfl
  have hfits : o.Fits c := by
    rw [ho, inspectedOutcome, if_pos htype]
    exact Outcome.ofTileCache_fits _ _ _
  have hwell : w₁.store.WellFormed := (Store.Performs.setExpectedTasks hset).wellFormed hw
  obtain ⟨d, u, h⟩ := World.settle_settles (w := w₁) (b := { c with expectedTasks := some 0 })
    (v := v) hwell hfits Store.asset_of_put rfl (by rw [← hkey]; exact Store.version_of_put)
  obtain rfl := h.follows hdefault
  refine ⟨d, _, (run_of_goOn hinspect).trans (run_of_finished hsettle), h.asset, ?_, ?_⟩
  · rw [h.store, hw₁, Store.put_put h.asset.id rfl]
  · exact h.cluster

/-- A tile cache of a version is filed and settled, or the log of the version says that it was not
filed. -/
theorem register_run {table : Asset} (answer : Answer) (hw : w.store.WellFormed)
    (ha : w.store.assets.get? a.id = some a) (hv : w.store.versions.get? v.key = some v)
    (hkey : table.key = v.key) :
    ∃ u cache? w', (register table (.answer answer)).run w = (.ok answer, w') ∧
      w.Reaches a v a u cache? w' := by
  rcases TileCache.file_reaches hw ha hv hkey with ⟨c, w₁, hfile, hreach, hwell⟩ |
    ⟨e, w₁, hfile, hreach⟩
  · have hstep : (register table (.answer answer)).step.run w =
        (.ok (.goOn (.inspect c (.answer answer))), w₁) := by
      refine step_run_of_ok ?_
      show (registerNow table _).run w = _
      rw [registerNow, Flow.run_attempt_bind, hfile]
      rfl
    have hnew := hreach.cache c rfl
    have hstore : w₁.store = w.store.fileAsset c := by
      rw [hreach.store, Store.put_some ha hv]
    have hversion : w₁.store.versions.get? c.key = some v := by
      rw [hnew.key]
      exact hreach.version_there
    obtain ⟨d, w', hrun, hd, hstore', hcluster⟩ := inspect_run answer hwell
      (by rw [hstore]; exact Directory.get?_insert_self _ _ _) hversion hnew.type hnew.isDefault
    refine ⟨v, some d, w', (run_of_goOn hstep).trans hrun, .refl a, .refl v, fun d' hd' => ?_, ?_,
      hcluster.trans hreach.cluster⟩
    · cases hd'
      exact ⟨hd.type.trans hnew.type, hd.key.trans hnew.key, hd.isDefault.trans hnew.isDefault,
        by rw [hd.id]; exact hnew.id, by rw [hd.uri]; exact hnew.uri⟩
    · rw [hstore', hstore, Store.put_filed (c := c) hd.id hd.uri hv, Store.put_some ha hv]
  · -- the failure is noted in the log of the version, which is there
    set entry := TileCache.failedEntry w₁.now e
    set u : Version := { v with log := v.log ++ [entry] }
    have hnote : w₁.store.appendVersionLog table.key entry = .ok (w₁.store.put a u none) := by
      rw [hkey]
      exact Store.appendVersionLog_eq hreach.asset_there hreach.version_there entry
    have hstep : (register table (.answer answer)).step.run w =
        (.ok (.finished answer), { w₁ with store := w₁.store.put a u none }) := by
      refine step_run_of_ok ?_
      show (registerNow table _).run w = _
      rw [registerNow, Flow.run_attempt_bind, hfile]
      show (Flow.read _ >>= _).run w₁ = _
      rw [Flow.run_read_bind, Flow.run_updateStore_bind_ok hnote]
      rfl
    exact ⟨u, none, _, run_of_finished hstep,
      hreach.trans (.unfiled (.refl a) (.note v entry) rfl rfl)⟩

end Activity

/-! ## What a report changes -/

namespace World

/-- What a report of a task changes: the log of the task, and possibly the asset of the task, its
version, and a new tile cache of the version. -/
structure Reported (w : World) (t : Task) (entry : LogEntry) (a : Asset) (v : Version) (b : Asset)
    (u : Version) (cache? : Option Asset) (w' : World) : Prop where
  task : w'.store.tasks.get? t.id = some { t with log := t.log ++ [entry] }
  asset : w'.store.assets.get? a.id = some b ∧ a.SettlesTo b
  version : w'.store.versions.get? v.key = some u ∧ v.SettlesTo u
  /-- Unless the asset was pending, nothing is done but to record the report. -/
  final : a.status ≠ .pending → b = a ∧ u = v ∧ cache? = none
  cache : ∀ c ∈ cache?, w'.store.assets.get? c.id = some c ∧ w.CachesTiles v.key c
  otherTasks : ∀ id, id ≠ t.id → w'.store.tasks.get? id = w.store.tasks.get? id
  otherAssets : ∀ x, x ≠ a.id → (∀ c ∈ cache?, x ≠ c.id) →
    w'.store.assets.get? x = w.store.assets.get? x
  otherVersions : ∀ k, k ≠ v.key → w'.store.versions.get? k = w.store.versions.get? k
  datasets : w'.store.datasets = w.store.datasets
  assetTasks : w'.store.assetTasks = w.store.assetTasks
  /-- The only new place is that of the tile cache. -/
  places : w'.store.places =
    cache?.elim w.store.places fun c => w.store.places.insert c.uri c.id
  rejectedTaskWrites : w'.store.rejectedTaskWrites = w.store.rejectedTaskWrites
  /-- No job is handed to the cluster. -/
  cluster : w'.cluster = w.cluster

/-- The world once a report was added to the log of a task. -/
def noteTask (w : World) (t : Task) (entry : LogEntry) : World :=
  { w with store := { w.store with
    tasks := w.store.tasks.insert t.id { t with log := t.log ++ [entry] } } }

variable {w w' : World} {t : Task} {entry : LogEntry} {a b : Asset} {v u : Version}
  {cache? : Option Asset}

/-- What is reached once a report was recorded is all that the report changes. -/
theorem Reaches.reported (h : (w.noteTask t entry).Reaches a v b u cache? w')
    (hfinal : a.status ≠ .pending → b = a ∧ u = v ∧ cache? = none)
    (ha : w.store.assets.get? a.id = some a) :
    w.Reported t entry a v b u cache? w' where
  task := by
    rw [h.store]
    exact Directory.get?_insert_self _ _ _
  asset := by
    refine ⟨?_, h.asset⟩
    rw [h.store, ← h.asset.id]
    cases hcache : cache? with
    | none => exact Store.asset_of_put
    | some c =>
      have hid := (h.cache c hcache).id
      have hne : c.id ≠ b.id := by
        intro he
        rw [he, h.asset.id] at hid
        exact absurd (ha.symm.trans hid) (by simp)
      exact (Directory.get?_insert_of_ne hne _ _).trans (Directory.get?_insert_self _ _ _)
  version := by
    rw [← h.version.key]
    exact ⟨h.version_there, h.version⟩
  final := hfinal
  cache := fun c hc => by
    have hnew := h.cache c hc
    obtain rfl := Option.mem_def.mp hc
    refine ⟨?_, hnew.type, hnew.key, hnew.isDefault, hnew.id, hnew.uri⟩
    rw [h.store]
    exact Directory.get?_insert_self _ _ _
  otherTasks := fun id hid => by
    rw [h.store]
    exact Directory.get?_insert_of_ne hid.symm _ _
  otherAssets := fun x hx hnew => by
    rw [h.store]
    exact Store.asset_of_put_of_ne (h.asset.id.symm ▸ hx) hnew
  otherVersions := fun k hk => by
    rw [h.store]
    exact Directory.get?_insert_of_ne (h.version.key.symm ▸ hk.symm) _ _
  datasets := by
    rw [h.store]
    rfl
  assetTasks := by
    rw [h.store]
    rfl
  places := by
    rw [h.store]
    rfl
  rejectedTaskWrites := by
    rw [h.store]
    rfl
  cluster := h.cluster

end World

namespace Activity

variable {w : World} {t : Task} {a : Asset} {v : Version}

/-- A report that was taken up is recorded and answered. -/
theorem record_run (entry : LogEntry) (hw : w.store.WellFormed)
    (ht : w.store.tasks.get? t.id = some t) (ha : w.store.assets.get? t.asset = some a)
    (hv : w.store.versions.get? a.key = some v) :
    ∃ b u cache? w', (record t.asset t.id entry).run w =
        (.ok (.task { t with log := t.log ++ [entry] }), w') ∧
      w.Reported t entry a v b u cache? w' := by
  have happend : w.store.appendTaskLog t.id entry =
      .ok ({ t with log := t.log ++ [entry] }, (w.noteTask t entry).store) := by
    rw [Store.appendTaskLog, Store.task, ht]
    rfl
  have hwell := (Store.Performs.appendTaskLog happend).wellFormed hw
  obtain ⟨b, u, h⟩ := World.settleByTasks_settles (w := w.noteTask t entry) hwell ha hv
  have hstep : (record t.asset t.id entry).step.run w =
      (.ok (.afterReport { t with log := t.log ++ [entry] }
        ((w.noteTask t entry).settleByTasks t.asset).1),
        ((w.noteTask t entry).settleByTasks t.asset).2) := by
    refine step_run_of_ok ?_
    show (recordReport t.id entry).run w = _
    rw [recordReport, Flow.run_takeFromStore_bind_ok happend]
    rfl
  have hwell' : ((w.noteTask t entry).settleByTasks t.asset).2.store.WellFormed := by
    obtain ⟨_, _, he⟩ := World.settleByTasks_cases hwell (Prod.eta _).symm
    exact he.store.wellFormed hwell
  have ha' : w.store.assets.get? a.id = some a := by rwa [hw.asset_id _ a ha]
  generalize (w.noteTask t entry).settleByTasks t.asset = settled at h hstep hwell'
  obtain ⟨settled, w₂⟩ := settled
  by_cases hregisters : ∃ table, settled = some ⟨table, true⟩
  · -- the asset was pending, since something has to follow
    obtain ⟨table, rfl⟩ := hregisters
    have hkey : table.key = u.key := by
      rw [h.key _ rfl, h.version.key, hw.version_key _ v hv]
    obtain ⟨u', cache?, w', hrun, hreach⟩ := register_run (.task _) hwell'
      h.asset_there h.version_there hkey
    refine ⟨b, u', cache?, w', (run_of_goOn hstep).trans hrun, ?_⟩
    refine (h.toReaches.trans hreach).reported (fun hfinal => ?_) ha'
    cases (h.final hfinal).2.2
  · have hfinished : Next.afterReport { t with log := t.log ++ [entry] } settled =
        .finished (.task { t with log := t.log ++ [entry] }) := by
      unfold Next.afterReport
      split
      · exact absurd ⟨_, rfl⟩ hregisters
      · rfl
    rw [hfinished] at hstep
    refine ⟨b, u, none, w₂, run_of_finished hstep, h.toReaches.reported (fun hfinal => ?_) ha'⟩
    obtain ⟨hb, hu, _⟩ := h.final hfinal
    exact ⟨hb, hu, rfl⟩

/-- A report of a known task succeeds, whatever becomes of the asset. -/
theorem report_run {entry : LogEntry} (hw : w.store.WellFormed)
    (ht : w.store.tasks.get? t.id = some t) (ha : w.store.assets.get? t.asset = some a)
    (hv : w.store.versions.get? a.key = some v) (hfinal : entry.progress.isTerminal = true) :
    ∃ b u cache? w', (Request.report t.id entry).run w =
        (.ok (.task { t with log := t.log ++ [entry] }), w') ∧
      w.Reported t entry a v b u cache? w' := by
  have hstep : (receive t.id entry).step.run w =
      (.ok (.goOn (.record t.asset t.id entry)), w.measure (.taskReported entry.progress)) := by
    refine step_run_of_ok ?_
    show (receiveReport t.id entry).run w = _
    unfold receiveReport require
    rw [hfinal]
    show (Flow.check (w.store.task t.id) >>= _).run (w.measure _) = _
    rw [Store.task, ht]
    rfl
  obtain ⟨b, u, cache?, w', hrun, hreported⟩ :=
    record_run (w := w.measure (.taskReported entry.progress)) entry hw ht ha hv
  exact ⟨b, u, cache?, w', (run_of_goOn hstep).trans hrun, { hreported with
    cache := fun c hc => ⟨(hreported.cache c hc).1, { (hreported.cache c hc).2 with }⟩ }⟩

end Activity

end GeoAssets
