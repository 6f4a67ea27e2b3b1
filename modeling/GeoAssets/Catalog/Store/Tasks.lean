import GeoAssets.Catalog.Store.Basic

/-!
# Tasks in the store
-/

namespace GeoAssets.Store

/-- Records a task under a new id for an asset. A recording that the store rejects is counted off
and may be tried again. -/
def createTask (s : Store) (t : Task) : Except Error Unit × Store :=
  if 0 < s.rejectedTaskWrites then
    (.error (.storage "task write rejected" none),
      { s with rejectedTaskWrites := s.rejectedTaskWrites - 1 })
  else if !s.assets.contains t.asset then (.error (.assetNotFound t.asset), s)
  else if s.tasks.contains t.id then (.error (.alreadyExists "task" t.id.text), s)
  else
    let ids := (s.assetTasks.get? t.asset).getD []
    (.ok (), { s with
      assetTasks := s.assetTasks.insert t.asset (ids ++ [t.id])
      tasks := s.tasks.insert t.id t })

/-- Adds an entry to the log of a task. Gives the task. -/
def appendTaskLog (s : Store) (id : TaskId) (e : LogEntry) : Except Error (Task × Store) := do
  let t ← s.task id
  let t := { t with log := t.log ++ [e] }
  pure (t, { s with tasks := s.tasks.insert id t })

/-- The next recordings of tasks are going to fail. -/
def rejectTaskWrites (s : Store) (count : Nat) : Store :=
  { s with rejectedTaskWrites := count }

end GeoAssets.Store
