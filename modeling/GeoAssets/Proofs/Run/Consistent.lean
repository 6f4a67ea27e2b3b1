import GeoAssets.Proofs.Catalog.Consistent
import GeoAssets.Proofs.Run.Settled

/-!
# Stores of runs are consistent

However requests, reports and the steps of background work follow each other, the store is
consistent after each of them. A pipeline that goes on after its asset was deleted leaves no trace
in the store.
-/

namespace GeoAssets.Orchestrator

/-- Every event keeps the directories of the store tidy. -/
theorem tidy_after {o : Orchestrator} (hs : o.Sound) {es : List Event}
    (hd : (o.after es).world.ids.Distinct) (ht : o.world.store.Tidy) :
    (o.after es).world.store.Tidy := by
  refine after_induction (p := fun o => o.world.store.Tidy) hs hd ht ?_
  intro o e hs hd ht
  obtain ⟨ops, he, _⟩ := handle_cases hs e hd
  exact ht.performAll he.store

/-- The store is consistent in every state of every run. -/
theorem initial_consistent {settings : Settings} {now : Timestamp} {ids : IdSupply}
    {es : List Event} (hd : ((initial settings now ids).after es).world.ids.Distinct) :
    ((initial settings now ids).after es).world.store.Consistent := by
  have hs := initial_sound settings now ids
  have hend := hs.after hd
  exact hend.world.wellFormed.consistent (tidy_after hs hd Store.tidy_empty)

/-! ## A run -/

namespace Sample

/-- Another version is created from a table, and is the latest. -/
def createLatest : Command :=
  .createVersion {
    key := ⟨"d", "v2"⟩
    isLatest := true
    sourceType := "table"
    options := .object [("source_uri", .array [.string "s3://b/a.csv"])] }

/-- A version is deleted while its jobs are submitted, and is created again. The old pipeline goes
on, and so does that of another version. -/
def tableReplaced : List Event :=
  datasetFiled ++ [.command createTable, .command createLatest, .advance 0, .advance 0, .advance 1,
    .command (.deleteVersion ⟨"d", "v1"⟩), .advance 0, .advance 0, .command createTable, .advance 3,
    .advance 1]

end Sample

set_option maxRecDepth 100000 in
theorem tableReplaced_consistent : ∃ es, es = Sample.tableReplaced ∧
    (Sample.start.after es).world.ids.Distinct ∧
      (Sample.start.after es).world.store.tasks.keys = [2, 4, 5].map Sample.ids.task ∧
      (Sample.start.after es).world.store.Consistent := by
  refine ⟨_, rfl, ?_⟩
  have hd : (Sample.start.after Sample.tableReplaced).world.ids.Distinct := by decide +kernel
  refine ⟨hd, ?_, initial_consistent hd⟩
  decide +kernel

end GeoAssets.Orchestrator
