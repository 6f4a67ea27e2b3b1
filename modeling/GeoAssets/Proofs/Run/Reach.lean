import GeoAssets.Proofs.Pipeline.Reach
import GeoAssets.Proofs.Run.Alike
import GeoAssets.Proofs.Run.Pieces
import GeoAssets.Proofs.Run.Settled

/-!
# Reports reach little

In every state of every run a report of a known task succeeds, and it changes nothing but what is
listed in `World.Reported`. The report is taken as a whole, from the call to the answer; a call does
just that while nobody holds a lock.
-/

namespace GeoAssets.Orchestrator

variable {o : Orchestrator} {n : Nat} {a : Activity}

/-! ## Calls -/

/-- Whoever holds no lock keeps nobody waiting. -/
def IsUnlocked (o : Orchestrator) : Prop :=
  ∀ x, o.locks.holder? x = none

theorem IsUnlocked.advance (h : o.IsUnlocked) (ha : o.workAt n = some a) :
    o.advance n = o.takeStep n a := by
  obtain ⟨piece, hp, rfl⟩ := Option.map_eq_some_iff.mp ha
  unfold Orchestrator.advance
  rw [hp]
  dsimp only
  split
  · rfl
  · next x _ => rw [h x]

/-- A piece that is not in line does not go on. -/
theorem advanceFor_of_parked (h : n ∉ o.background.ready) (steps : Nat) :
    advanceFor steps n o = o := by
  cases steps with
  | zero => rfl
  | succ steps => rw [advanceFor, if_neg h]

/-- A piece that has ended is not in line any more, and its result is known. -/
theorem takeStep_ends {next : Except Error Next} {w : World} {r : Except Error Answer}
    (ha : o.workAt n = some a) (hr : a.step.run o.world = (next, w))
    (hends : ending? next = some (.returned r)) :
    n ∉ (o.takeStep n a).background.ready ∧ (o.takeStep n a).result? n = some r := by
  obtain ⟨_, _, hending⟩ := takeStep_self ha hr
  rw [hends, Option.some_or] at hending
  constructor
  · have hparked : ∀ ending, n ∉ (o.background.conclude n ending).ready := by
      intro ending hn
      exact of_decide_eq_true (List.mem_filter.mp hn).2 rfl
    rw [takeStep_background, hr]
    rcases next with e | next
    · exact hparked _
    · cases next with
      | goOn rest => cases hends
      | finished answer => exact hparked _
  · show (endingAt _ n).map _ = _
    rw [hending]
    rfl

/-- A piece in line goes on to its end while nobody holds a lock. -/
theorem IsUnlocked.advanceFor (h : o.IsUnlocked) (ha : o.workAt n = some a)
    (hready : n ∈ o.background.ready) {steps : Nat} (hsteps : a.rank ≤ steps) :
    (Orchestrator.advanceFor steps n o).world = (a.run o.world).2 ∧
      (Orchestrator.advanceFor steps n o).result? n = some (a.run o.world).1 := by
  induction steps generalizing o a with
  | zero => exact absurd hsteps (Nat.not_le.mpr a.rank_pos)
  | succ steps ih =>
    rw [Orchestrator.advanceFor, if_pos hready, h.advance ha]
    rcases hr : a.step.run o.world with ⟨next, w⟩
    obtain ⟨hworld, hwork, _⟩ := takeStep_self ha hr
    rcases next with e | next
    · obtain ⟨hparked, hresult⟩ := takeStep_ends ha hr rfl
      rw [advanceFor_of_parked hparked, a.run_of_error hr]
      exact ⟨hworld, hresult⟩
    cases next with
    | finished answer =>
      obtain ⟨hparked, hresult⟩ := takeStep_ends ha hr rfl
      rw [advanceFor_of_parked hparked, a.run_of_finished hr]
      exact ⟨hworld, hresult⟩
    | goOn rest =>
      have hunlocked : (o.takeStep n a).IsUnlocked := by
        intro x
        rw [locks_takeStep]
        exact h x
      have hready' : n ∈ (o.takeStep n a).background.ready := by
        rw [takeStep_background, hr]
        exact hready
      have hrank : rest.rank < a.rank := a.step_gives o.world _ w hr
      rw [a.run_of_goOn hr, ← hworld]
      exact ih hunlocked hwork hready' (by omega)

/-- While nobody holds a lock a call is a run of its activity. -/
theorem IsUnlocked.call (h : o.IsUnlocked) (name : String) (a : Activity) :
    (o.call name a).1 = some (a.run o.world).1 ∧ (o.call name a).2.world = (a.run o.world).2 := by
  have hready : o.background.started ∈ (o.startCall name a).2.background.ready :=
    List.mem_append_right _ List.mem_cons_self
  have hwork : (o.startCall name a).2.workAt o.background.started = some a :=
    (workAt_start o name false a o.world o.locks _).trans (if_pos rfl)
  have hunlocked : (o.startCall name a).2.IsUnlocked := h
  obtain ⟨hworld, hresult⟩ := hunlocked.advanceFor hwork hready (Nat.le_succ a.rank)
  have hcall : o.call name a =
      let o₁ := Orchestrator.advanceFor (a.rank + 1) o.background.started (o.startCall name a).2
      let o₂ := if (o₁.result? o.background.started).isSome then o₁ else o₁.settleDown
      (o₂.result? o.background.started, o₂) := rfl
  rw [hcall]
  dsimp only
  rw [hresult, Option.isSome_some, if_pos rfl]
  exact ⟨hresult, hworld⟩

/-! ## Runs -/

/-- Reports of known tasks succeed in a state and change what they should. -/
structure TakesReports (o : Orchestrator) : Prop where
  report : ∀ id t entry, o.world.store.tasks.get? id = some t → entry.progress.isTerminal = true →
    ∃ a v b u cache? w', o.world.store.assets.get? t.asset = some a ∧
      o.world.store.versions.get? a.key = some v ∧
      (Request.report id entry).run o.world =
        (.ok (.task { t with log := t.log ++ [entry] }), w') ∧
      o.world.Reported t entry a v b u cache? w'
  /-- A call takes the whole report, while nobody holds a lock. -/
  call : o.IsUnlocked → ∀ name id entry,
    (o.call name (Request.report id entry)).1 = some ((Request.report id entry).run o.world).1 ∧
      (o.call name (Request.report id entry)).2.world = ((Request.report id entry).run o.world).2

/-- Reports of known tasks succeed in every state of every run, and change what they should. -/
theorem initial_takesReports {settings : Settings} {now : Timestamp} {ids : IdSupply}
    {es : List Event} (hd : ((initial settings now ids).after es).world.ids.Distinct) :
    ((initial settings now ids).after es).TakesReports := by
  have hw := ((initial_sound settings now ids).after hd).world.wellFormed
  generalize (initial settings now ids).after es = o at hw
  constructor
  case call => exact fun h name id entry => h.call name _
  case report =>
    intro id t entry ht hfinal
    obtain rfl := hw.task_id id t ht
    obtain ⟨a, ha⟩ := hw.asset_of_task _ t ht
    obtain ⟨v, hv⟩ := hw.version_of_asset _ a ha
    obtain ⟨b, u, cache?, w', hrun, hreported⟩ := Activity.report_run hw ht ha hv hfinal
    exact ⟨a, v, b, u, cache?, w', ha, hv, hrun, hreported⟩

/-! ## A report -/

namespace Sample

/-- A version is created from a table of places, for which tiles are to be rendered. -/
def createPlaces : Command :=
  .createVersion {
    key := ⟨"d", "v1"⟩
    sourceType := "table"
    options := .object [
      ("source_uri", .array [.string "s3://b/a.csv"]),
      ("latitude", .string "lat"),
      ("longitude", .string "lon"),
      ("indices", .array [.object [("index_type", .string "gist"),
        ("column_names", .array [.string "geom_wm"])]]),
      ("create_dynamic_vector_tile_cache", .bool true)] }

/-- The table has geometries for web maps. -/
def placesLoaded : Event :=
  .surround {
    now := ⟨0, 0⟩
    services := { database := { tables := ⟨[(("d", "v1"), [⟨"geom_wm", "geometry"⟩])]⟩ } }
    refused := []
    histories := {}
    rejectedTaskWrites := 0 }

/-- All jobs but the last have succeeded. -/
def placesExpected : List Event :=
  datasetFiled ++ placesLoaded :: .command createPlaces :: List.replicate 7 (.advance 0) ++
    delivered 1 0 .success ++ delivered 2 1 .success ++ delivered 3 2 .success

/-- The last job has succeeded, and the tile cache was filed. -/
def placesReported : List Event :=
  delivered 4 3 .success ++ [.advance 4]

/-- The assets with their fields. -/
def assets (o : Orchestrator) : List (AssetType × Status × List String) :=
  o.world.store.assets.values.map fun a => (a.type, a.status, a.metadata.fields.map (·.name))

/-- How long the logs of versions, assets and tasks are. -/
def logLengths (o : Orchestrator) : List (List Nat) :=
  let s := o.world.store
  [s.versions.values.map (·.log.length), s.assets.values.map (·.log.length),
    s.tasks.values.map (·.log.length)]

end Sample

set_option maxRecDepth 100000 in
theorem placesExpected_takesReports : ∃ o, o = Sample.start.after Sample.placesExpected ∧
    o.world.ids.Distinct ∧
      Sample.assets o = [(.geoDatabaseTable, .pending, [])] ∧
      Sample.logLengths o = [[0], [0], [2, 2, 2, 1]] ∧
      Sample.assets (o.after Sample.placesReported) = [(.geoDatabaseTable, .saved, ["geom_wm"]),
        (.dynamicVectorTileCache, .pending, ["geom_wm"])] ∧
      Sample.logLengths (o.after Sample.placesReported) = [[1], [1, 0], [2, 2, 2, 2]] ∧
      o.TakesReports := by
  have hd : (Sample.start.after Sample.placesExpected).world.ids.Distinct := by decide +kernel
  refine ⟨_, rfl, hd, ?_, ?_, ?_, ?_, initial_takesReports hd⟩
  · decide +kernel
  · decide +kernel
  · decide +kernel
  · decide +kernel

end GeoAssets.Orchestrator
