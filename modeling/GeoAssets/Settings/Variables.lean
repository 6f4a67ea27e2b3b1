import GeoAssets.Settings.Basic
import GeoAssets.Text.Numeral
import GeoAssets.Text.Split

/-!
# Settings from variables

Named variables override the standard settings one by one. A variable that holds nothing but blanks
counts as missing; the blanks around a value are not part of it.
-/

namespace GeoAssets

/-- Variables by name. -/
abbrev Variables := String → Option String

namespace Variables

/-! ## Single values -/

/-- The value of a variable without the blanks around it, if anything is left. -/
def text? (vars : Variables) (name : String) : Option String :=
  match vars name with
  | some v => if Text.trim v = "" then none else some (Text.trim v)
  | none => none

/-- The value of a variable, or the value that it overrides. -/
def text (vars : Variables) (name fallback : String) : String :=
  (vars.text? name).getD fallback

/-- The location in a variable, without slashes at its end. -/
def location (vars : Variables) (name fallback : String) : String :=
  match vars.text? name with
  | some v => Text.dropEnding '/' v
  | none => fallback

/-- The number in a variable, or the number that it overrides. -/
def number (vars : Variables) (name typeName : String) (bound fallback : Nat) :
    Except Error Nat :=
  match vars.text? name with
  | none => .ok fallback
  | some v =>
    match Text.readNumeral bound v with
    | .ok n => .ok n
    | .error e => .error (.invalidSettings (name ++ " must be a " ++ typeName ++ ": " ++ e.message))

/-! ## Groups of values -/

/-- The name of a kind of jobs in the names of variables. -/
def kindName (kind : JobKind) : String :=
  String.ofList (kind.name.toList.map Char.toUpper)

/-- The target of a kind of jobs. -/
def jobTarget (vars : Variables) (kind : JobKind) : JobTarget where
  queue := vars.text ("STRATA_" ++ kindName kind ++ "_JOB_QUEUE") (JobTarget.ofKind kind).queue
  definition :=
    vars.text ("STRATA_" ++ kindName kind ++ "_JOB_DEFINITION") (JobTarget.ofKind kind).definition

/-- The targets of all kinds of jobs. -/
def jobTargets (vars : Variables) : JobTargets :=
  JobKind.all.foldl (fun targets kind => targets.set kind (vars.jobTarget kind)) {}

/-- A connection in a role. -/
def connection (vars : Variables) (role : String) (fallback : Connection) :
    Except Error Connection := do
  let start := "STRATA_DB_" ++ role ++ "_"
  let tcpPort ← vars.number (start ++ "PORT") "u16" UInt16.size fallback.tcpPort.toNat
  pure {
    host := vars.text (start ++ "HOST") fallback.host
    tcpPort := .ofNat tcpPort
    database := vars.text (start ++ "DATABASE") fallback.database
    user := vars.text (start ++ "USER") fallback.user
    password := vars.text (start ++ "PASSWORD") fallback.password }

end Variables

/-- The standard settings, overridden by variables and checked. -/
def Settings.ofVariables (vars : Variables) : Except Error Settings := do
  let base := Settings.standard
  let maxParents ←
    vars.number "STRATA_MAX_PARENTS_PER_JOB" "usize" UInt64.size base.maxParents.toNat
  let maxLoadQueues ←
    vars.number "STRATA_MAX_LOAD_QUEUES" "usize" UInt64.size base.maxLoadQueues.toNat
  let writer ← vars.connection "WRITER" base.writer
  let reader ← vars.connection "READER" base.reader
  let settings : Settings := {
    dataLakeBucket := vars.text "STRATA_DATA_LAKE_BUCKET" base.dataLakeBucket
    tileCacheBucket := vars.text "STRATA_TILE_CACHE_BUCKET" base.tileCacheBucket
    cdnDistribution := vars.text "STRATA_CDN_DISTRIBUTION_ID" base.cdnDistribution
    tileCacheUrl := vars.location "STRATA_TILE_CACHE_URL" base.tileCacheUrl
    statusUrl := vars.location "STRATA_STATUS_URL" base.statusUrl
    region := vars.text "STRATA_REGION" base.region
    jobTargets := vars.jobTargets
    maxParents := .ofNat maxParents
    maxLoadQueues := .ofNat maxLoadQueues
    writer := writer
    reader := reader }
  settings.validate
  pure settings

end GeoAssets
