import GeoAssets.Orchestrator
import GeoAssets.Proofs.Lifecycle.World

/-!
# Runs of the orchestrator

A run is a list of events. Callers make requests, report the ends of tasks and take or release the
locks of assets; any piece of the work in the background takes its next step; and time, services and
cluster change as they like. The events may come in any order, and every piece of work that was
started may go on at any time.
-/

namespace GeoAssets

/-! ## Requests -/

/-- What callers may ask of the orchestrator. -/
inductive Command where
  | createDataset (d : Dataset)
  | deleteDataset (name : String)
  | createVersion (r : VersionRequest)
  | setLatest (key : VersionKey)
  | deleteVersion (key : VersionKey)
  | createDefaultAsset (key : VersionKey) (sourceType : String) (options : Json)
  | createAsset (key : VersionKey) (type : AssetType) (options : Json)
  | deleteAsset (id : AssetId)
  | getTask (id : TaskId)
  | resubmissionCores (id : TaskId) (current : UInt32)
  | resubmissionProcesses (id : TaskId) (current : UInt32)

/-- The program of a request. Gives the work that goes on after it. -/
def Command.flow : Command → Flow (Option Work)
  | .createDataset d => (fun _ => none) <$> Request.createDataset d
  | .deleteDataset name => (fun _ => none) <$> Request.deleteDataset name
  | .createVersion r => (fun answer => some answer.2) <$> Request.createVersion r
  | .setLatest key => (fun _ => none) <$> Request.setLatest key
  | .deleteVersion key => (fun answer => some answer.2) <$> Request.deleteVersion key
  | .createDefaultAsset key sourceType options =>
    (fun answer => some answer.2) <$> Request.createDefaultAsset key sourceType options
  | .createAsset key type options =>
    (fun answer => some answer.2) <$> Request.createAsset key type options
  | .deleteAsset id => (fun answer => some answer.2) <$> Request.deleteAsset id
  | .getTask id => (fun _ => none) <$> Request.getTask id
  | .resubmissionCores id current => (fun _ => none) <$> Request.resubmissionCores id current
  | .resubmissionProcesses id current =>
    (fun _ => none) <$> Request.resubmissionProcesses id current

/-! ## Surroundings -/

/-- What the orchestrator does not change by itself. -/
structure Surroundings where
  now : Timestamp
  services : Services
  /-- The names of the jobs that the cluster refuses. -/
  refused : List String
  /-- The finished attempts of jobs. -/
  histories : Directory TaskId (List JobAttempt)
  /-- How many of the next attempts to record a task are going to fail. -/
  rejectedTaskWrites : Nat

/-- The world in other surroundings. -/
def World.surround (w : World) (s : Surroundings) : World :=
  { w with
    now := s.now
    services := s.services
    cluster := { w.cluster with refused := s.refused, histories := s.histories }
    store := w.store.rejectTaskWrites s.rejectedTaskWrites }

/-! ## Events -/

/-- Something that happens. -/
inductive Event where
  | command (c : Command)
  /-- The end of a task is reported. -/
  | report (task : TaskId) (entry : LogEntry)
  /-- A piece of the work in the background takes its next step, or waits for a lock. -/
  | advance (piece : Nat)
  | hold (asset : AssetId)
  | release (asset : AssetId)
  | surround (s : Surroundings)

namespace Orchestrator

/-- Makes a request and starts the work that goes on after it. -/
def obey (o : Orchestrator) (c : Command) : Orchestrator :=
  match o.request c.flow with
  | (.ok (some work), o) => (o.startWork work).2
  | (.ok none, o) | (.error _, o) => o

/-- The orchestrator after an event. -/
def handle (o : Orchestrator) : Event → Orchestrator
  | .command c => o.obey c
  | .report task entry => (o.startCall ("report " ++ task.text) (Request.report task entry)).2
  | .advance n => o.advance n
  | .hold a => o.hold a
  | .release a => o.release a
  | .surround s => { o with world := o.world.surround s }

/-- The orchestrator after some events. -/
def after (o : Orchestrator) (events : List Event) : Orchestrator :=
  events.foldl handle o

/-- An orchestrator to which nothing has happened. -/
def initial (settings : Settings) (now : Timestamp) (ids : IdSupply) : Orchestrator where
  world := { settings, now, ids }

theorem after_nil (o : Orchestrator) : o.after [] = o := rfl

theorem after_cons (o : Orchestrator) (e : Event) (es : List Event) :
    o.after (e :: es) = (o.handle e).after es := rfl

theorem after_append (o : Orchestrator) (es es' : List Event) :
    o.after (es ++ es') = (o.after es).after es' :=
  List.foldl_append

theorem after_concat (o : Orchestrator) (es : List Event) (e : Event) :
    o.after (es ++ [e]) = (o.after es).handle e := by
  rw [after_append]
  rfl

/-! ## Work -/

/-- What a piece has left to do, if it has not ended. -/
def workAt (o : Orchestrator) (n : Nat) : Option Activity :=
  (o.background.pieces.get? n).map (·.rest)

end Orchestrator

end GeoAssets
