import GeoAssets.Calendar.Timestamp
import GeoAssets.Catalog.Status
import GeoAssets.Json.Layout

/-!
# Change logs

Every record of the catalog keeps a list of what happened to it, oldest first. Entries are only ever
added at the end.
-/

namespace GeoAssets

/-- One thing that happened to a record. -/
structure LogEntry where
  /-- When it was noted. -/
  time : Timestamp
  /-- What it reports. -/
  progress : Progress
  message : String
  /-- The output of a failure, or where to look. -/
  detail : Option String
  deriving DecidableEq, Repr

/-- What happened to a record, oldest first. -/
abbrev ChangeLog := List LogEntry

namespace LogEntry

/-- The fields of an entry. -/
def layout : Layout LogEntry :=
  ((Layout.required "date_time" Timestamp.codec).and <|
    (Layout.required "status" Progress.codec).and <|
    (Layout.required "message" .string).and <|
    Layout.optional "detail" .string).imap
    (fun (time, progress, message, detail) => ⟨time, progress, message, detail⟩)
    fun e => (e.time, e.progress, e.message, e.detail)

/-- Entries are written as records. -/
def codec : Codec LogEntry :=
  layout.codec

/-- An entry without detail. -/
def note (time : Timestamp) (progress : Progress) (message : String) : LogEntry where
  time := time
  progress := progress
  message := message
  detail := none

/-- The entry with a detail. -/
def withDetail (e : LogEntry) (detail : String) : LogEntry :=
  { e with detail := some detail }

end LogEntry

namespace ChangeLog

/-- What the last entry that is not pending reports; pending if there is none. -/
def progress (log : ChangeLog) : Progress :=
  match log.reverse.find? fun e => e.progress.isTerminal with
  | some e => e.progress
  | none => .pending

/-- An entry at the end decides if it is final and changes nothing otherwise. -/
theorem progress_append_single (log : ChangeLog) (e : LogEntry) :
    progress (log ++ [e]) = if e.progress.isTerminal then e.progress else progress log := by
  unfold progress
  rw [List.reverse_append, List.reverse_singleton, List.singleton_append, List.find?_cons]
  cases e.progress.isTerminal <;> rfl

end ChangeLog

end GeoAssets
