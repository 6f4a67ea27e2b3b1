import GeoAssets.Proofs.Run.TileCaches
import Mathlib.Data.List.Induction

/-!
# What saved tile caches stand on

Whether it was registered for a table or asked for by a caller, a dynamic tile cache is looked after
by one piece of work, which decides over it by what the default asset of its version shows at that
moment. A default asset that was saved then is still there, and as it was, as long as the cache is
there. So in every state the tiles of a saved cache can be rendered
(`Orchestrator.InspectsTileCaches`).
-/

namespace GeoAssets

/-! ## Default assets -/

/-- An asset is the only default asset of a version. -/
structure Store.IsDefaultOf (s : Store) (k : VersionKey) (t : Asset) : Prop where
  stored : s.assets.get? t.id = some t
  key : t.key = k
  isDefault : t.isDefault = true
  only : ∀ y u, s.assets.get? y = some u → u.key = k → u.isDefault = true → u = t

/-- The default asset of a version is saved, and shows geometries for web maps. -/
def Store.ShowsWebMap (s : Store) (k : VersionKey) : Prop :=
  ∃ t, s.IsDefaultOf k t ∧ t.status = .saved ∧ t.ShowsWebMap

/-! ## What is seen of a tile cache -/

/-- What is seen of a dynamic tile cache, given the statuses for which its piece of work may have
decided. -/
inductive View.CachePhase (decided : Status → Prop) : View → Prop where
  | filed {c d : Asset} {goal : Goal} (pending : c.status = .pending) :
    CachePhase decided ⟨c, [], some (.inspect d goal)⟩
  | inspected {c d : Asset} {q : Outcome} {goal : Goal} (pending : c.status = .pending)
    (final : q.status.isTerminal = true) (h : decided q.status) :
    CachePhase decided ⟨c, [], some (.settle d q goal)⟩
  | settled {c : Asset} (final : c.status.isTerminal = true) (h : decided c.status) :
    CachePhase decided ⟨c, [], none⟩

namespace View.CachePhase

variable {decided decided' : Status → Prop} {v v' : View}

/-- The piece of work decides where it looks at the cache, and settles the cache accordingly. -/
theorem step (h : v.CachePhase decided) (hs : v.Steps v') (hstays : ∀ s, decided s → decided' s)
    (hlooks : ∀ d goal q, v.work = some (.inspect d goal) → v'.work = some (.settle d q goal) →
      decided' q.status) : v'.CachePhase decided' := by
  have hnone : ∀ {id : TaskId}, ¬ ∃ t ∈ ([] : List Task), t.id = id := by
    rintro _ ⟨_, ht, _⟩
    cases ht
  cases h with
  | filed hpending =>
    cases hs with
    | stays => exact .filed hpending
    | reported ht => exact absurd ht hnone
    | inspected hfinal => exact .inspected hpending hfinal (hlooks _ _ _ rfl rfl)
  | inspected hpending hfinal hdecided =>
    cases hs with
    | stays => exact .inspected hpending hfinal (hstays _ hdecided)
    | reported ht => exact absurd ht hnone
    | settled hsettled =>
      cases hsettled with
      | final hterminal =>
        rw [hpending] at hterminal
        cases hterminal
      | pending _ hstatus =>
        rw [← hstatus] at hfinal hdecided
        exact .settled hfinal (hstays _ hdecided)
  | settled hfinal hdecided =>
    cases hs with
    | stays => exact .settled hfinal (hstays _ hdecided)
    | reported ht => exact absurd ht hnone

/-- What was settled was decided. -/
theorem decided_of_settled (h : v.CachePhase decided) (hsettled : v.asset.status ≠ .pending) :
    decided v.asset.status := by
  cases h with
  | filed hpending | inspected hpending => exact absurd hpending hsettled
  | settled _ hdecided => exact hdecided

/-- A pending cache is worked on. -/
theorem exists_work (h : v.CachePhase decided) (hpending : v.asset.status = .pending) :
    ∃ act, v.work = some act := by
  cases h with
  | filed | inspected => exact ⟨_, rfl⟩
  | settled hfinal =>
    change Status.isTerminal _ = true at hfinal
    rw [hpending] at hfinal
    cases hfinal

theorem rank_le (h : v.CachePhase decided) {act : Activity} (hwork : v.work = some act) :
    act.rank ≤ 5 := by
  cases h with
  | @filed _ _ goal _ | @inspected _ _ _ goal =>
    cases hwork
    cases goal <;> simp [Activity.rank, Activity.goalRank]
  | settled => cases hwork

end View.CachePhase

namespace Orchestrator

variable {o : Orchestrator} {e : Event} {x : AssetId} {k : VersionKey} {a b t : Asset}

theorem isDefaultOf (hs : o.Sound) (ht : o.world.store.assets.get? x = some t)
    (hdefault : t.isDefault = true) : o.world.store.IsDefaultOf t.key t := by
  have hid := hs.world.wellFormed.asset_id x t ht
  refine ⟨hid ▸ ht, rfl, hdefault, fun y u hu hkey hu' => ?_⟩
  obtain rfl := hs.world.defaultsLead.unique y u x t hu ht hu' hdefault hkey
  exact Option.some.inj (hu.symm.trans ht)

/-! ## Looking at a cache -/

/-- The asset that a piece of work is about to look at. -/
def inspectedAt (o : Orchestrator) (n : Nat) : Option Asset :=
  (o.workAt n).bind fun
    | .inspect a _ => some a
    | _ => none

theorem inspectedAt_eq_some_iff {n : Nat} :
    o.inspectedAt n = some a ↔ ∃ goal, o.workAt n = some (.inspect a goal) := by
  unfold inspectedAt
  cases o.workAt n with
  | none => simp
  | some act => cases act <;> simp

/-- The world once an asset that takes no jobs was settled with an outcome. -/
def settledJobless (w : World) (a b : Asset) (q : Outcome) : World :=
  let assets := w.store.assets.insert a.id { b with expectedTasks := some 0 }
  (World.settle { w with store := { w.store with assets } } a q).2

/-- Where nobody holds a lock two steps settle an asset that takes no jobs. -/
theorem world_of_inspected {n : Nat} (hunlocked : o.IsUnlocked) (hn : o.inspectedAt n = some a)
    (hb : o.world.store.assets.get? a.id = some b) :
    (o.after [.advance n, .advance n]).world =
      settledJobless o.world a b (Activity.inspectedOutcome o.world a) := by
  obtain ⟨goal, hact⟩ := inspectedAt_eq_some_iff.mp hn
  obtain ⟨hworld, hwork, _⟩ := takeStep_self hact (Activity.inspect_step goal hb)
  rw [← hunlocked.advance hact] at hworld hwork
  obtain ⟨hworld', _⟩ := takeStep_self hwork (Activity.settle_step _ _ _ _)
  change ((o.advance n).advance n).world = _
  rw [(hunlocked.handle_advance n).advance hwork, hworld', hworld]
  rfl

/-- The outcome for a tile cache tells whether the default asset of its version shows geometries for
web maps. -/
theorem inspectedOutcome_status (hs : o.Sound) (hplanned : o.HasPlanned)
    (htype : a.type = .dynamicVectorTileCache) :
    (Activity.inspectedOutcome o.world a).status = .saved ↔
      o.world.store.ShowsWebMap a.key := by
  constructor
  · intro hsaved
    rw [Activity.inspectedOutcome, if_pos htype] at hsaved
    cases htable : TileCache.tableOf? o.world.store a.key with
    | none =>
      rw [htable] at hsaved
      cases hsaved
    | some t =>
      rw [htable] at hsaved
      obtain ⟨ht, hkey, hdatabase, htsaved⟩ := TileCache.of_tableOf? hs.world.wellFormed htable
      have hdefault := (hplanned _ _ ht).isDefault_iff.mpr hdatabase
      exact ⟨t, hkey ▸ isDefaultOf hs ht hdefault, htsaved,
        (Outcome.ofTileCache_status hdatabase htsaved).mp hsaved⟩
  · rintro ⟨t, ht, hsaved, hshows⟩
    have hp := hplanned _ _ ht.stored
    have hmanaged : t.isManagedTable = true :=
      Bool.and_eq_true_iff.mpr ⟨hp.isManaged, hp.isDefault_iff.mp ht.isDefault⟩
    exact (inspectedOutcome_of_table hs hplanned ht.stored hmanaged hsaved htype
      ht.key.symm).2.mpr hshows

section

variable {settings : Settings} {now : Timestamp} {ids : IdSupply} {es es₁ es₂ : List Event}

/-- A default asset that shows geometries for web maps goes on to do so, as long as another asset of
its version is there. -/
theorem showsWebMap_concat
    (hd : ((initial settings now ids).after (es ++ [e])).world.ids.Distinct)
    (h : ((initial settings now ids).after es).world.store.ShowsWebMap k)
    (ha : ((initial settings now ids).after es).world.store.assets.get? x = some a)
    (hkey : a.key = k)
    (hb : ((initial settings now ids).after (es ++ [e])).world.store.assets.get? x = some b) :
    ((initial settings now ids).after (es ++ [e])).world.store.ShowsWebMap k := by
  obtain ⟨hs, _, _, hd', _⟩ := usual_at hd rfl
  obtain ⟨t, ht, hsaved, hshows⟩ := h
  obtain ⟨p, _, _, hw, _⟩ := exists_staged ((handle_extends _ e).distinct hd') ht.stored
  rw [after_concat] at hb ⊢
  obtain ⟨t', ht'⟩ := default_stays hs hd' ht.stored ht.isDefault ha (hkey.trans ht.key.symm) hb
  have hd₁ : (((initial settings now ids).after es).after [e]).world.ids.Distinct := hd'
  obtain ⟨n, rfl⟩ := asset_of_final hw hs hd₁ ht.stored (by rw [hsaved]; rfl) ht'
  refine ⟨{ t with expectedTasks := n }, ?_, hsaved, (Asset.showsWebMap_iff n).mpr hshows⟩
  rw [← ht.key]
  exact isDefaultOf (t := { t with expectedTasks := n }) (hs.handle e hd') ht' ht.isDefault

theorem showsWebMap_append
    (hd : ((initial settings now ids).after (es₁ ++ es₂)).world.ids.Distinct)
    (h : ((initial settings now ids).after es₁).world.store.ShowsWebMap a.key)
    (ha : ((initial settings now ids).after es₁).world.store.assets.get? x = some a)
    (hb : ((initial settings now ids).after (es₁ ++ es₂)).world.store.assets.get? x = some b) :
    ((initial settings now ids).after (es₁ ++ es₂)).world.store.ShowsWebMap a.key := by
  induction es₂ using List.reverseRecOn generalizing b with
  | nil =>
    rw [List.append_nil]
    exact h
  | append_singleton es₂ e ih =>
    rw [← List.append_assoc] at hd hb ⊢
    obtain ⟨hs, _, _, hd', _⟩ := usual_at hd rfl
    have hd₂ := distinct_of_append hd
    have hs₁ := (initial_sound settings now ids).after (distinct_of_append hd₂)
    -- the other asset is there in between, for it is there at the end
    have hdrawn := (after_extends _ es₂).hasDrawnAsset (hs₁.world.asset x a ha)
    rw [← after_append] at hdrawn
    rw [after_concat] at hb
    have hd₁ : (((initial settings now ids).after (es₁ ++ es₂)).after [e]).world.ids.Distinct := hd'
    obtain ⟨c, hc⟩ := exists_of_after hs hd₁ hdrawn hb
    rw [← after_concat] at hb
    have hkey : c.key = a.key := by
      rw [after_append] at hd₂ hc
      rw [(becomes_after hs₁ hd₂ ha hc).same]
    exact showsWebMap_concat hd (ih hd₂ hc) hc hkey hb

/-! ## The work on a cache -/

/-- In a run a piece of work has looked at a tile cache of a version, and decided for a status by
what the default asset of the version showed then. -/
def Decided (o : Orchestrator) (es : List Event) (x : AssetId) (k : VersionKey) (s : Status) :
    Prop :=
  ∃ es₁ n es₂ d, es = es₁ ++ .advance n :: es₂ ∧ (o.after es₁).inspectedAt n = some d ∧ d.id = x ∧
    (s = .saved ↔ (o.after es₁).world.store.ShowsWebMap k)

theorem Decided.concat {s : Status} (h : o.Decided es x k s) (e : Event) :
    o.Decided (es ++ [e]) x k s := by
  obtain ⟨es₁, n, es₂, d, rfl, h⟩ := h
  exact ⟨es₁, n, es₂ ++ [e], d, by rw [List.append_assoc, List.cons_append], h⟩

/-- No jobs are submitted for a dynamic tile cache, so its pipeline looks at it. -/
theorem exists_inspect {g : JobGraph} (hu : (Work.pipeline a g).activity.IsUsual)
    (htype : a.type = .dynamicVectorTileCache) :
    ∃ goal, (Work.pipeline a g).activity = .inspect a goal := by
  have hpipeline : (Work.pipeline a g).activity = Activity.ofGraph a g .pipeline := rfl
  rw [hpipeline, Activity.ofGraph] at hu ⊢
  split at hu
  · next hempty => exact ⟨_, if_pos hempty⟩
  · exact absurd htype hu.1

/-- From the event that files it a dynamic tile cache is looked at by a piece of work, which settles
it as it has decided. -/
theorem exists_cachePhase (hd : ((initial settings now ids).after es).world.ids.Distinct)
    (ha : ((initial settings now ids).after es).world.store.assets.get? x = some a)
    (htype : a.type = .dynamicVectorTileCache) :
    ∃ p, ((initial settings now ids).after es).Watches x p ∧
      View.CachePhase ((initial settings now ids).Decided es x a.key)
        ⟨a, ((initial settings now ids).after es).world.store.tasksOf x,
          ((initial settings now ids).after es).workOn x p⟩ := by
  induction es using List.reverseRecOn generalizing a with
  | nil => cases ha
  | append_singleton es e ih =>
    obtain ⟨hs, hu, hplanned, hd', _⟩ := usual_at hd rfl
    rw [after_concat] at ha ⊢
    cases hb : ((initial settings now ids).after es).world.store.assets.get? x with
    | none =>
      obtain ⟨ops, he, hh⟩ := handle_cases hs e hd'
      obtain ⟨p, act, hnew, hw, hview, hact⟩ := view_of_filed hs he hd' hh hb ha
      obtain ⟨_, htasks, hwork⟩ := view?_eq_some_iff.mp hview
      refine ⟨p, hw, ?_⟩
      rw [← htasks, ← hwork]
      have husual := hu.handle hs e hd' p act (workOn_eq_some_iff.mp hwork.symm).1
      obtain ⟨goal, rfl⟩ : ∃ goal, act = .inspect a goal := by
        rcases hact with ⟨g, _, rfl⟩ | hinspect
        · exact exists_inspect husual htype
        · exact hinspect
      exact .filed hnew.status
    | some b =>
      obtain ⟨_, he, _⟩ := handle_cases hs e hd'
      have hbecomes := (he.asset_of_some hd' hs.world hb ha).2.1
      have hkey : b.key = a.key := by rw [hbecomes.same]
      obtain ⟨p, hw, hphase⟩ := ih ((handle_extends _ e).distinct hd') hb (hbecomes.type ▸ htype)
      refine ⟨p, hw.handle hs e hd', ?_⟩
      have hsteps := hw.steps hs e hd' (view?_of_asset hb p) (view?_of_asset ha p)
      rw [← hkey]
      refine hphase.step hsteps (fun _ h => h.concat e) fun d goal q hwork hwork' => ?_
      obtain ⟨hact, hsubject⟩ := workOn_eq_some_iff.mp hwork
      obtain ⟨hact', _⟩ := workOn_eq_some_iff.mp hwork'
      obtain rfl : d.id = x := Option.some.inj hsubject
      obtain ⟨rfl, rfl⟩ := outcome_of_inspect hs hact hb hact'
      have hcopy := (hs.suits p _ hact).copy d rfl b hb
      refine ⟨es, p, [], d, rfl, inspectedAt_eq_some_iff.mpr ⟨goal, hact⟩, rfl, ?_⟩
      rw [hcopy.same]
      exact inspectedOutcome_status hs hplanned (hcopy.type.symm.trans (hbecomes.type ▸ htype))

/-- A saved tile cache was decided over when the default asset of its version showed geometries for
web maps, which it still does. -/
theorem showsWebMap_of_saved (hd : ((initial settings now ids).after es).world.ids.Distinct)
    (ha : ((initial settings now ids).after es).world.store.assets.get? x = some a)
    (htype : a.type = .dynamicVectorTileCache) (hsaved : a.status = .saved) :
    ((initial settings now ids).after es).world.store.ShowsWebMap a.key := by
  obtain ⟨p, _, hphase⟩ := exists_cachePhase hd ha htype
  obtain ⟨es₁, n, es₂, d, rfl, hinspected, rfl, hshows⟩ :=
    hphase.decided_of_settled (by rw [hsaved]; decide)
  obtain ⟨goal, hact⟩ := inspectedAt_eq_some_iff.mp hinspected
  have hs := (initial_sound settings now ids).after (distinct_of_append hd)
  have hend := hd
  rw [after_append] at hend ha
  obtain ⟨b, hb⟩ := exists_of_after hs hend (hs.subject n _ _ hact rfl) ha
  have hkey : a.key = b.key := by rw [(becomes_after hs hend hb ha).same]
  rw [← after_append] at ha
  rw [hkey] at hshows ⊢
  exact showsWebMap_append hd (hshows.mp hsaved) hb ha

end

/-- In a run dynamic tile caches are saved only where their tiles can be rendered, and none is left
pending. -/
structure InspectsTileCaches (o : Orchestrator) (es : List Event) : Prop where
  /-- In every state of the run the default asset below a saved cache is saved, and shows geometries
  for web maps. -/
  saved : ∀ es₁ es₂ x c, es = es₁ ++ es₂ →
    (o.after es₁).world.store.assets.get? x = some c → c.type = .dynamicVectorTileCache →
    c.status = .saved → (o.after es₁).world.store.ShowsWebMap c.key
  /-- A cache was settled by what the default asset showed when a piece of work looked at it. -/
  decided : ∀ x c, (o.after es).world.store.assets.get? x = some c →
    c.type = .dynamicVectorTileCache → c.status ≠ .pending → o.Decided es x c.key c.status
  /-- A pending cache is worked on. -/
  pending : ∀ x c, (o.after es).world.store.assets.get? x = some c →
    c.type = .dynamicVectorTileCache → c.status = .pending →
    ∃ n act, (o.after es).workAt n = some act ∧ act.subject? = some x
  /-- Once the work on a cache has ended the cache is not pending. -/
  ended : ∀ es₁ es₂ n act x c, es = es₁ ++ es₂ → (o.after es₁).workAt n = some act →
    act.subject? = some x → (o.after es).workAt n = none →
    (o.after es).world.store.assets.get? x = some c → c.type = .dynamicVectorTileCache →
    c.status ≠ .pending
  /-- While nobody holds a lock five more steps end the work on a cache. -/
  ends : ∀ n act x c, (o.after es).workAt n = some act → act.subject? = some x →
    (o.after es).world.store.assets.get? x = some c → c.type = .dynamicVectorTileCache →
    (o.after es).IsUnlocked → ((o.after es).after (List.replicate 5 (.advance n))).workAt n = none

/-- Dynamic tile caches are saved only where their tiles can be rendered, in every run. -/
theorem initial_inspectsTileCaches {settings : Settings} {now : Timestamp} {ids : IdSupply}
    {es : List Event} (hd : ((initial settings now ids).after es).world.ids.Distinct) :
    (initial settings now ids).InspectsTileCaches es := by
  constructor
  case saved =>
    intro es₁ es₂ x c hes hc htype hsaved
    exact showsWebMap_of_saved (distinct_of_append (hes ▸ hd)) hc htype hsaved
  case decided =>
    intro x c hc htype hsettled
    obtain ⟨_, _, hphase⟩ := exists_cachePhase hd hc htype
    exact hphase.decided_of_settled hsettled
  case pending =>
    intro x c hc htype hpending
    obtain ⟨p, _, hphase⟩ := exists_cachePhase hd hc htype
    obtain ⟨act, hwork⟩ := hphase.exists_work hpending
    exact ⟨p, act, workOn_eq_some_iff.mp hwork⟩
  case ended =>
    intro es₁ es₂ n act x c hes hact hsubject hended hc htype hpending
    obtain ⟨p, _, hphase⟩ := exists_cachePhase hd hc htype
    obtain ⟨act', hwork⟩ := hphase.exists_work hpending
    obtain ⟨hact', hsubject'⟩ := workOn_eq_some_iff.mp hwork
    subst hes
    -- one piece is about the cache from then on, and it is the one that has ended
    have hd₁ := distinct_of_append hd
    have hs := (initial_sound settings now ids).after hd₁
    rw [after_append] at hd hc hact' hended
    obtain ⟨b, hb⟩ := exists_of_after hs hd (hs.subject n act x hact hsubject) hc
    obtain ⟨m, _, _, hw, _⟩ := exists_staged hd₁ hb
    obtain rfl := hw.only n act hact hsubject
    obtain rfl := (hw.after hs hd).only p act' hact' hsubject'
    cases hended.symm.trans hact'
  case ends =>
    intro n act x c hact hsubject hc htype hunlocked
    obtain ⟨p, hw, hphase⟩ := exists_cachePhase hd hc htype
    obtain rfl := hw.only n act hact hsubject
    refine HasStepsLeft.ends (fun act' hact' => ?_) hunlocked
    cases hact.symm.trans hact'
    exact hphase.rank_le (workOn_eq_some_iff.mpr ⟨hact, hsubject⟩)

/-! ## Two runs -/

theorem isUnlocked_of_tracked (h : o.locks.tracked = 0) : o.IsUnlocked := by
  intro x
  have hlines : o.locks.lines.entries = [] := List.length_eq_zero_iff.mp h
  rw [LockTable.holder?, LockTable.line, Directory.get?, hlines]
  rfl

/-- The saved table of a version that was filed first. -/
def filedTable? (w : World) (k : VersionKey) : Option Asset :=
  (w.store.assets.values.filter (·.key == k)).find? fun a => a.type.isDatabase && a.status == .saved

theorem inspectedOutcome_of_pairwise {w : World} (htype : a.type = .dynamicVectorTileCache)
    (h : (w.store.assets.values.filter (·.key == a.key)).Pairwise fun a b => a.id.le b.id = true) :
    Activity.inspectedOutcome w a = .ofTileCache w.now a (filedTable? w a.key) := by
  rw [Activity.inspectedOutcome, if_pos htype, TileCache.tableOf?, Store.assetsOf_of_pairwise h,
    filedTable?]

namespace Sample

/-- The tile cache of a table of places is looked at and settled. -/
def placesServed : List Event :=
  placesCached ++ [.advance 4, .advance 4]

/-- A caller asks for a tile cache, which is looked at and settled before the table is saved. -/
def placesAwaited : List Event :=
  (placesExpected ++ [.command createCache]) ++ [.advance 4, .advance 4]

/-- A tile cache with some metadata. -/
def cache (metadata : AssetMetadata) : Asset :=
  { Asset.create (ids.asset 1) ⟨"d", "v1"⟩ .dynamicVectorTileCache
      (Location.tileCache Settings.standard.tileCacheUrl ⟨"d", "v1"⟩ "dynamic" "pbf")
      (.dynamicTiles {}) ⟨0, 0⟩ with metadata }

/-- The tile cache that is filed for the table. -/
def cacheOfPlaces : Asset :=
  cache ⟨[.ofColumn ⟨"geom_wm", "geometry"⟩], some 0, some 22⟩

/-- How the fourth piece of work settles a tile cache. -/
theorem world_of_cache {es : List Event} {c : Asset} (hkey : c.key = ⟨"d", "v1"⟩)
    (htype : c.type = .dynamicVectorTileCache) (hlocks : (start.after es).locks.tracked = 0)
    (hc : (start.after es).inspectedAt 4 = some c)
    (hstored : (start.after es).world.store.assets.get? c.id = some c)
    (hsorted : ((start.after es).world.store.assets.values.filter (·.key == ⟨"d", "v1"⟩)).Pairwise
      fun a b => a.id.le b.id = true) :
    (start.after (es ++ [.advance 4, .advance 4])).world =
      settledJobless (start.after es).world c c (.ofTileCache (start.after es).world.now c
        (filedTable? (start.after es).world ⟨"d", "v1"⟩)) := by
  rw [after_append, world_of_inspected (isUnlocked_of_tracked hlocks) hc hstored,
    inspectedOutcome_of_pairwise htype (hkey ▸ hsorted), hkey]

set_option maxRecDepth 100000 in
theorem world_placesServed : (start.after placesServed).world =
    settledJobless (start.after placesCached).world cacheOfPlaces cacheOfPlaces
      (.ofTileCache (start.after placesCached).world.now cacheOfPlaces
        (filedTable? (start.after placesCached).world ⟨"d", "v1"⟩)) := by
  refine world_of_cache rfl rfl ?_ ?_ ?_ ?_
  · decide +kernel
  · decide +kernel
  · decide +kernel
  · decide +kernel

set_option maxRecDepth 100000 in
theorem world_placesAwaited : (start.after placesAwaited).world =
    settledJobless (start.after (placesExpected ++ [.command createCache])).world (cache {})
      (cache {}) (.ofTileCache (start.after (placesExpected ++ [.command createCache])).world.now
        (cache {}) (filedTable? (start.after (placesExpected ++ [.command createCache])).world
          ⟨"d", "v1"⟩)) := by
  refine world_of_cache rfl rfl ?_ ?_ ?_ ?_
  · decide +kernel
  · decide +kernel
  · decide +kernel
  · decide +kernel

end Sample

set_option maxRecDepth 100000 in
theorem placesServed_inspectsTileCaches : ∃ es es', es = Sample.placesServed ∧
    es' = Sample.placesAwaited ∧ (Sample.start.after es).world.ids.Distinct ∧
      (Sample.start.after es').world.ids.Distinct ∧
      Sample.assets (Sample.start.after es) = [(.geoDatabaseTable, .saved, ["geom_wm"]),
        (.dynamicVectorTileCache, .saved, ["geom_wm"])] ∧
      Sample.assets (Sample.start.after es') =
        [(.geoDatabaseTable, .pending, []), (.dynamicVectorTileCache, .failed, [])] ∧
      Sample.start.InspectsTileCaches es ∧ Sample.start.InspectsTileCaches es' := by
  have hd : (Sample.start.after Sample.placesServed).world.ids.Distinct := by
    rw [Sample.world_placesServed]
    decide +kernel
  have hd' : (Sample.start.after Sample.placesAwaited).world.ids.Distinct := by
    rw [Sample.world_placesAwaited]
    decide +kernel
  refine ⟨_, _, rfl, rfl, hd, hd', ?_, ?_, initial_inspectsTileCaches hd,
    initial_inspectsTileCaches hd'⟩
  · rw [Sample.assets, Sample.world_placesServed]
    decide +kernel
  · rw [Sample.assets, Sample.world_placesAwaited]
    decide +kernel

end Orchestrator

end GeoAssets
