import GeoAssets.Lifecycle.Submission
import GeoAssets.Lifecycle.TileCache
import GeoAssets.Proofs.Lifecycle.World

/-!
# What programs do

The programs that steps of activities consist of, each with what it gives and what it does to the
world: submitting a job records its task or leaves the catalog as it is, and so does filing a tile
cache.
-/

namespace GeoAssets

/-! ## Runs of programs -/

namespace Flow

variable {α β : Type}

theorem run_read_bind (f : World → α) (g : α → Flow β) (w : World) :
    (read f >>= g).run w = (g (f w)).run w := rfl

theorem run_check_read_bind (f : World → Except Error α) (g : α → Flow β) (w : World) :
    ((check =<< read f) >>= g).run w = (check (f w) >>= g).run w := rfl

theorem run_check_ok_bind (a : α) (g : α → Flow β) (w : World) :
    (check (.ok a) >>= g).run w = (g a).run w := rfl

theorem run_measure_bind (m : Measurement) (g : Unit → Flow β) (w : World) :
    (measure m >>= g).run w = (g ()).run (w.measure m) := rfl

theorem run_ofWorld_bind (f : World → α × World) (g : α → Flow β) (w : World) :
    (ofWorld f >>= g).run w = (g (f w).1).run (f w).2 := rfl

theorem run_attempt_bind (f : Flow α) (g : Except Error α → Flow β) (w : World) :
    (attempt f >>= g).run w = (g (f.run w).1).run (f.run w).2 := rfl

theorem run_drawAssetId_bind (g : AssetId → Flow β) (w : World) :
    (drawAssetId >>= g).run w = (g (w.ids.asset w.ids.assetsDrawn)).run
      { w with ids := { w.ids with assetsDrawn := w.ids.assetsDrawn + 1 } } := rfl

theorem run_updateStore_bind_ok {f : Store → Except Error Store} {w : World} {s : Store}
    (h : f w.store = .ok s) (g : Unit → Flow β) :
    (updateStore f >>= g).run w = (g ()).run { w with store := s } := by
  rw [run_bind, updateStore, run_ofRun, h]

theorem run_takeFromStore_bind_ok {f : Store → Except Error (α × Store)} {w : World} {a : α}
    {s : Store} (h : f w.store = .ok (a, s)) (g : α → Flow β) :
    (takeFromStore f >>= g).run w = (g a).run { w with store := s } := by
  rw [run_bind, takeFromStore, run_ofRun, h]

theorem run_check_bind_cases {x : Except Error α} {g : α → Flow β} {w w' : World}
    {r : Except Error β} (h : (check x >>= g).run w = (r, w')) :
    (∃ a, x = .ok a ∧ (g a).run w = (r, w')) ∨ ∃ e, x = .error e ∧ r = .error e ∧ w' = w := by
  cases x with
  | error e =>
    right
    cases h
    exact ⟨e, rfl, rfl, rfl⟩
  | ok a =>
    left
    exact ⟨a, rfl, h⟩

/-- A program that consists of two gives what the second gives, unless the first fails. -/
theorem run_bind_cases {f : Flow α} {g : α → Flow β} {w w' : World} {r : Except Error β}
    (h : (f >>= g).run w = (r, w')) :
    (∃ a w₁, f.run w = (.ok a, w₁) ∧ (g a).run w₁ = (r, w')) ∨
      ∃ e, f.run w = (.error e, w') ∧ r = .error e := by
  rw [run_bind] at h
  rcases hf : f.run w with ⟨e | a, w₁⟩
  · right
    rw [hf] at h
    cases h
    exact ⟨e, rfl, rfl⟩
  · left
    rw [hf] at h
    exact ⟨a, w₁, rfl, h⟩

theorem run_map_cases {f : Flow α} {g : α → β} {w w' : World} {r : Except Error β}
    (h : (g <$> f).run w = (r, w')) :
    (∃ a, f.run w = (.ok a, w') ∧ r = .ok (g a)) ∨
      ∃ e, f.run w = (.error e, w') ∧ r = .error e := by
  rcases run_bind_cases (f := f) (g := fun a => pure (g a)) h with ⟨a, w₁, hf, hg⟩ | hf
  · left
    cases hg
    exact ⟨a, hf, rfl⟩
  · right
    exact hf

theorem run_updateStore_cases {f : Store → Except Error Store} {w w' : World}
    {r : Except Error Unit} (h : (updateStore f).run w = (r, w')) :
    (∃ s, f w.store = .ok s ∧ r = .ok () ∧ w' = { w with store := s }) ∨
      ∃ e, f w.store = .error e ∧ r = .error e ∧ w' = w := by
  unfold updateStore at h
  rw [run_ofRun] at h
  split at h
  · next s hs =>
    left
    cases h
    exact ⟨s, hs, rfl, rfl⟩
  · next e he =>
    right
    cases h
    exact ⟨e, he, rfl, rfl⟩

theorem run_takeFromStore_cases {f : Store → Except Error (α × Store)} {w w' : World}
    {r : Except Error α} (h : (takeFromStore f).run w = (r, w')) :
    (∃ a s, f w.store = .ok (a, s) ∧ r = .ok a ∧ w' = { w with store := s }) ∨
      ∃ e, f w.store = .error e ∧ r = .error e ∧ w' = w := by
  unfold takeFromStore at h
  rw [run_ofRun] at h
  split at h
  · next a s hs =>
    left
    cases h
    exact ⟨a, s, hs, rfl, rfl⟩
  · next e he =>
    right
    cases h
    exact ⟨e, he, rfl, rfl⟩

theorem run_updateStore_bind_cases {f : Store → Except Error Store} {g : Unit → Flow β}
    {w w' : World} {r : Except Error β} (h : (updateStore f >>= g).run w = (r, w')) :
    (∃ s, f w.store = .ok s ∧ (g ()).run { w with store := s } = (r, w')) ∨
      ∃ e, f w.store = .error e ∧ r = .error e ∧ w' = w := by
  rcases run_bind_cases h with ⟨_, w₁, hf, hg⟩ | ⟨e, hf, rfl⟩
  · rcases run_updateStore_cases hf with ⟨s, hs, _, rfl⟩ | ⟨_, _, hr, _⟩
    · exact Or.inl ⟨s, hs, hg⟩
    · cases hr
  · rcases run_updateStore_cases hf with ⟨_, _, hr, _⟩ | ⟨_, hs, hr, rfl⟩
    · cases hr
    · cases hr
      exact Or.inr ⟨e, hs, rfl, rfl⟩

theorem run_takeFromStore_bind_cases {f : Store → Except Error (α × Store)} {g : α → Flow β}
    {w w' : World} {r : Except Error β} (h : (takeFromStore f >>= g).run w = (r, w')) :
    (∃ a s, f w.store = .ok (a, s) ∧ (g a).run { w with store := s } = (r, w')) ∨
      ∃ e, f w.store = .error e ∧ r = .error e ∧ w' = w := by
  rcases run_bind_cases h with ⟨a, w₁, hf, hg⟩ | ⟨e, hf, rfl⟩
  · rcases run_takeFromStore_cases hf with ⟨_, s, hs, hr, rfl⟩ | ⟨_, _, hr, _⟩
    · cases hr
      exact Or.inl ⟨a, s, hs, hg⟩
    · cases hr
  · rcases run_takeFromStore_cases hf with ⟨_, _, _, hr, _⟩ | ⟨_, hs, hr, rfl⟩
    · cases hr
    · cases hr
      exact Or.inr ⟨e, hs, rfl, rfl⟩

end Flow

/-! ## Recording tasks -/

/-- A recording that fails changes no record, and the store has the task if it says so. -/
theorem Store.createTask_eq_error {s s' : Store} {t : Task} {e : Error}
    (h : s.createTask t = (.error e, s')) : (∃ count, s' = s.rejectTaskWrites count) ∧
      ((∃ entity key, e = .alreadyExists entity key) → s.tasks.contains t.id = true) := by
  unfold Store.createTask at h
  split at h
  · cases h
    refine ⟨⟨_, rfl⟩, ?_⟩
    rintro ⟨_, _, he⟩
    cases he
  split at h
  · cases h
    refine ⟨⟨s.rejectedTaskWrites, rfl⟩, ?_⟩
    rintro ⟨_, _, he⟩
    cases he
  split at h
  · next ht =>
    cases h
    exact ⟨⟨s.rejectedTaskWrites, rfl⟩, fun _ => ht⟩
  · cases h

namespace Submission

variable {w w' : World} {t : Task}

theorem tryRecord_cases {r : Except Error (Option Error)} (hnew : w.store.tasks.get? t.id = none)
    (h : (tryRecord t).run w = (r, w')) :
    (r = .ok none ∧ ∃ s, w.store.Performs (.createTask t) s ∧ w' = { w with store := s }) ∨
      ∃ e count, r = .ok (some e) ∧ w' = { w with store := w.store.rejectTaskWrites count } := by
  unfold tryRecord at h
  rw [Flow.run_ofRun] at h
  split at h
  · next s hs =>
    left
    cases h
    exact ⟨rfl, s, .createTask hs, rfl⟩
  · next entity key s hs =>
    -- the task has a new id
    have hc := (Store.createTask_eq_error hs).2 ⟨entity, key, rfl⟩
    obtain ⟨u, hu⟩ := Directory.contains_iff.mp hc
    rw [hnew] at hu
    cases hu
  · next e s _ hs =>
    right
    obtain ⟨⟨count, rfl⟩, _⟩ := Store.createTask_eq_error hs
    cases h
    exact ⟨e, count, rfl, rfl⟩

theorem recordTask_ids {retries : Nat} {r : Except Error Unit}
    (h : (recordTask t retries).run w = (r, w')) : w'.ids = w.ids := by
  have htry : ∀ {w w' : World} {r : Except Error (Option Error)},
      (tryRecord t).run w = (r, w') → w'.ids = w.ids := by
    intro w w' r h
    unfold tryRecord at h
    rw [Flow.run_ofRun] at h
    split at h
    all_goals cases h; rfl
  induction retries generalizing w with
  | zero =>
    unfold recordTask at h
    rcases Flow.run_bind_cases h with ⟨a, w₁, hf, hg⟩ | ⟨e, hf, _⟩
    · cases a with
      | none => cases hg; exact htry hf
      | some e => cases hg; exact htry hf
    · exact htry hf
  | succ retries ih =>
    unfold recordTask at h
    rcases Flow.run_bind_cases h with ⟨a, w₁, hf, hg⟩ | ⟨e, hf, _⟩
    · cases a with
      | none => cases hg; exact htry hf
      | some e => exact (ih hg).trans (htry hf)
    · exact htry hf

/-- A new task is recorded in the end, or no record changes. -/
theorem recordTask_cases {retries : Nat} {r : Except Error Unit}
    (hnew : w.store.tasks.get? t.id = none) (h : (recordTask t retries).run w = (r, w')) :
    ∃ s, w' = { w with store := s } ∧
      ((r = .ok () ∧ w.store.PerformsAll [.createTask t] s) ∨
        ∃ e, r = .error e ∧ w.store.PerformsAll [] s) := by
  induction retries generalizing w with
  | zero =>
    unfold recordTask at h
    rcases Flow.run_bind_cases h with ⟨a, w₁, hf, hg⟩ | ⟨e, hf, rfl⟩
    · rcases tryRecord_cases hnew hf with ⟨ha, s, hs, rfl⟩ | ⟨e, count, ha, rfl⟩
      · cases ha
        cases hg
        exact ⟨s, rfl, Or.inl ⟨rfl, .single hs⟩⟩
      · cases ha
        cases hg
        exact ⟨_, rfl, Or.inr ⟨e, rfl, .reject count (.nil _)⟩⟩
    · rcases tryRecord_cases hnew hf with ⟨ha, _⟩ | ⟨_, _, ha, _⟩
      · cases ha
      · cases ha
  | succ retries ih =>
    unfold recordTask at h
    rcases Flow.run_bind_cases h with ⟨a, w₁, hf, hg⟩ | ⟨e, hf, rfl⟩
    · rcases tryRecord_cases hnew hf with ⟨ha, s, hs, rfl⟩ | ⟨e, count, ha, rfl⟩
      · cases ha
        cases hg
        exact ⟨s, rfl, Or.inl ⟨rfl, .single hs⟩⟩
      · cases ha
        -- a rejected attempt leaves nothing in the store but the count of those to come
        obtain ⟨s, rfl, hr⟩ := ih (w := { w with store := w.store.rejectTaskWrites count }) hnew hg
        refine ⟨s, rfl, ?_⟩
        rcases hr with ⟨hr, hs⟩ | ⟨e, hr, hs⟩
        · exact Or.inl ⟨hr, .reject count hs⟩
        · exact Or.inr ⟨e, hr, .reject count hs⟩
    · rcases tryRecord_cases hnew hf with ⟨ha, _⟩ | ⟨_, _, ha, _⟩
      · cases ha
      · cases ha

/-! ## Submitting -/

/-- A request that is refused changes nothing. One that is accepted is known to the cluster under a
new id. -/
theorem submitRequest_cases {q : SubmitRequest} {r : Except Error TaskId}
    (h : (submitRequest q).run w = (r, w')) :
    (∃ cluster, w.cluster.submit (w.ids.task w.ids.tasksDrawn) q = .ok cluster ∧
      r = .ok (w.ids.task w.ids.tasksDrawn) ∧ w' = { w with
        cluster, ids := { w.ids with tasksDrawn := w.ids.tasksDrawn + 1 } }) ∨
      ∃ e, r = .error e ∧ w' = w := by
  unfold submitRequest at h
  rw [Flow.run_ofRun] at h
  dsimp only at h
  split at h
  · next cluster hc =>
    left
    cases h
    exact ⟨cluster, hc, rfl, rfl⟩
  · next e _ =>
    right
    cases h
    exact ⟨e, rfl, rfl⟩

/-- A job is not accepted, and nothing changes; or it is accepted, and then its task is recorded or
the error names it. -/
theorem submitJob_inv {asset : AssetId} {ids : Directory String TaskId} {job : Job}
    {r : Except Error TaskId} (hw : w.Sound) (hd : w'.ids.Distinct)
    (h : (submitJob asset ids job).run w = (r, w')) :
    (w' = w ∧ ∃ e, r = .error e) ∨
      ∃ id q cluster s, id = w.ids.task w.ids.tasksDrawn ∧ q.jobName = job.name ∧
        w.cluster.submit id q = .ok cluster ∧ w' = { w with
          cluster, ids := { w.ids with tasksDrawn := w.ids.tasksDrawn + 1 }, store := s } ∧
        ((r = .ok id ∧ w.store.PerformsAll [.createTask (newTask w.now asset id job)] s) ∨
          ∃ e, r = .error (unrecorded id e) ∧ w.store.PerformsAll [] s) := by
  unfold submitJob at h
  rcases Flow.run_check_bind_cases h with ⟨parents, _, h⟩ | ⟨e, _, rfl, rfl⟩
  swap
  · exact Or.inl ⟨rfl, e, rfl⟩
  rw [Flow.run_read_bind] at h
  rcases Flow.run_check_bind_cases h with ⟨q, hq, h⟩ | ⟨e, _, rfl, rfl⟩
  swap
  · exact Or.inl ⟨rfl, e, rfl⟩
  rcases Flow.run_bind_cases h with ⟨id, w₁, hf, h⟩ | ⟨e, hf, rfl⟩
  swap
  · rcases submitRequest_cases hf with ⟨_, _, hr, _⟩ | ⟨_, _, rfl⟩
    · cases hr
    · exact Or.inl ⟨rfl, e, rfl⟩
  rcases submitRequest_cases hf with ⟨cluster, hc, hr, rfl⟩ | ⟨_, hr, _⟩
  swap
  · cases hr
  cases hr
  rw [Flow.run_read_bind, Flow.run_attempt_bind] at h
  generalize hrec : (recordTask _ recordRetries).run _ = res at h
  obtain ⟨r₁, w₁⟩ := res
  have hlast : w₁ = w' := by
    cases r₁ with
    | ok _ => cases h; rfl
    | error e => cases h; rfl
  -- the cluster has drawn an id that no task has
  have hnew : w.store.tasks.get? (w.ids.task w.ids.tasksDrawn) = none := by
    rw [← hlast, recordTask_ids hrec] at hd
    cases ht : w.store.tasks.get? (w.ids.task w.ids.tasksDrawn) with
    | none => rfl
    | some t =>
      have hdrawn := (IdSupply.Extends.drawTask w.ids).not_hasDrawnTask hd (.next w.ids)
      exact absurd (hw.task _ t ht) hdrawn
  obtain ⟨s, rfl, hs⟩ := recordTask_cases hnew hrec
  have hname : q.jobName = job.name := by
    simp only [SubmitRequest.ofJob, bind_eq_ok_iff] at hq
    obtain ⟨_, _, hq⟩ := hq
    cases hq
    rfl
  refine Or.inr ⟨_, q, cluster, s, rfl, hname, hc, hlast.symm, ?_⟩
  rcases hs with ⟨rfl, hs⟩ | ⟨e, rfl, hs⟩
  · cases h
    exact Or.inl ⟨rfl, hs⟩
  · cases h
    exact Or.inr ⟨e, rfl, hs⟩

/-- A job that is submitted has its task recorded; otherwise no record changes. -/
theorem submitJob_cases {asset : AssetId} {ids : Directory String TaskId} {job : Job}
    {r : Except Error TaskId} (hw : w.Sound) (hd : w'.ids.Distinct)
    (h : (submitJob asset ids job).run w = (r, w')) :
    (∃ id, r = .ok id ∧ w.Evolves [.createTask (newTask w.now asset id job)] w') ∨
      ∃ e, r = .error e ∧ w.Evolves [] w' := by
  rcases submitJob_inv hw hd h with ⟨rfl, e, rfl⟩ | ⟨id, q, cluster, s, hid, _, _, rfl, hs⟩
  · exact Or.inr ⟨e, rfl, .refl w'⟩
  have hids := IdSupply.Extends.drawTask w.ids
  rcases hs with ⟨rfl, hs⟩ | ⟨e, rfl, hs⟩
  · left
    refine ⟨id, rfl, { ids := hids, store := hs, files := ?_, records := ?_, settlements := ?_ }⟩
    · intro op hop a ha
      rw [List.mem_singleton.mp hop] at ha
      cases ha
    · intro op hop t ht
      rw [List.mem_singleton.mp hop] at ht
      cases ht
      rw [hid]
      exact .next w.ids
    · intro m _
      rfl
  · right
    refine ⟨_, rfl, { ids := hids, store := hs, files := ?_, records := ?_, settlements := ?_ }⟩
    · intro op hop
      cases hop
    · intro op hop
      cases hop
    · intro m _
      rfl

end Submission

/-! ## Filing tile caches -/

namespace TileCache

theorem ofTable_eq_ok {settings : Settings} {time : Timestamp} {id : AssetId}
    {table cache : Asset} (h : ofTable settings time id table = .ok cache) :
    cache.id = id ∧ cache.IsNew := by
  simp only [ofTable, bind_eq_ok_iff] at h
  obtain ⟨uri, _, h⟩ := h
  cases h
  exact ⟨rfl, rfl, rfl, rfl⟩

/-- The tile cache of a table is filed, or no record changes. -/
theorem file_cases {w w' : World} {table : Asset} {r : Except Error Asset}
    (h : (file table).run w = (r, w')) :
    (∃ cache, r = .ok cache ∧ w.Evolves [.createAsset cache] w') ∨
      ∃ e, r = .error e ∧ w.Evolves [] w' := by
  unfold file at h
  rw [Flow.run_drawAssetId_bind, Flow.run_read_bind, Flow.run_read_bind] at h
  rcases Flow.run_check_bind_cases h with ⟨cache, hc, h⟩ | ⟨e, _, rfl, rfl⟩
  swap
  · exact Or.inr ⟨e, rfl, .drawAsset w⟩
  obtain ⟨hid, hnew⟩ := ofTable_eq_ok hc
  rcases Flow.run_updateStore_bind_cases h with ⟨s, hs, h⟩ | ⟨e, _, rfl, rfl⟩
  · left
    cases h
    exact ⟨cache, rfl, .fileDrawn (.createAsset hnew hs) rfl hid⟩
  · exact Or.inr ⟨e, rfl, .drawAsset w⟩

end TileCache

end GeoAssets
