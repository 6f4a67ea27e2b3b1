import GeoAssets.Identifier.Ulid
import GeoAssets.Json.Codec
import GeoAssets.Text.Blank

/-!
# Identifiers of assets and tasks

An asset id is generated here and is a sortable identifier. A task id is whatever text the cluster
assigned to a job, as long as it is not empty and has no blank.
-/

namespace GeoAssets

/-! ## Identifier errors -/

/-- Why a text is no identifier. -/
inductive IdentifierError where
  | asset (text : String) (reason : Ulid.ReadError)
  | emptyTask
  | blankInTask (text : String)
  deriving DecidableEq, Repr

/-- The wording of the reason. -/
def IdentifierError.message : IdentifierError → String
  | .asset text reason => "invalid asset ID '" ++ text ++ "': " ++ reason.message
  | .emptyTask => "task ID must not be empty"
  | .blankInTask text => "task ID '" ++ text ++ "' must not contain whitespace"

/-! ## Assets -/

/-- The id of an asset. -/
structure AssetId where
  ulid : Ulid
  deriving DecidableEq, Repr

namespace AssetId

/-- The text of an id. -/
def text (id : AssetId) : String :=
  id.ulid.text

/-- Reads an id. -/
def ofText (s : String) : Except IdentifierError AssetId :=
  match Ulid.ofText s with
  | .ok u => .ok ⟨u⟩
  | .error reason => .error (.asset s reason)

/-- The order of ids. -/
def le (a b : AssetId) : Bool :=
  a.ulid.le b.ulid

/-- Ids are written as texts. -/
def codec : Codec AssetId :=
  Codec.string.via (fun s => (ofText s).toOption) text

end AssetId

/-! ## Tasks -/

/-- Decides whether a text may be the id of a task. -/
def TaskId.isValid (s : String) : Bool :=
  s != "" && !s.toList.any Text.isBlank

/-- The id of a task. -/
structure TaskId where
  text : String
  valid : TaskId.isValid text = true
  deriving DecidableEq, Repr

namespace TaskId

/-- Reads an id. -/
def ofText (s : String) : Except IdentifierError TaskId :=
  if h : isValid s = true then .ok ⟨s, h⟩
  else if s = "" then .error .emptyTask
  else .error (.blankInTask s)

/-- The text of an id is read as that id. -/
theorem ofText_text (id : TaskId) : ofText id.text = .ok id := by
  simp [ofText, id.valid]

/-- Ids are written as texts. -/
def codec : Codec TaskId :=
  Codec.string.via (fun s => (ofText s).toOption) text

theorem codec_roundTrips : codec.RoundTrips :=
  Codec.via_roundTrips Codec.string_roundTrips fun id => by simp [ofText_text, Except.toOption]

end TaskId

end GeoAssets
