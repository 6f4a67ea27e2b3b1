import GeoAssets.Identifier.Basic
import GeoAssets.Text.Quoted

/-!
# Errors

Why a request was refused or background work failed. A constructor is a cause; `Error.message` is
the one place that words the causes, and `Error.status` the one place that grades them for callers
over HTTP.
-/

namespace GeoAssets

/-- A cause of failure. -/
inductive Error where
  /-- A record that was asked for does not exist. -/
  | notFound (entity key : String)
  /-- A record that was to be created exists. -/
  | alreadyExists (entity key : String)
  /-- No pipeline reads this type of source. -/
  | unsupportedSource (sourceType : String)
  /-- What was asked for is not available yet. -/
  | notImplemented (what : String)
  /-- The request contradicts the state of the catalog. -/
  | conflict (reason : String)
  /-- The request makes no sense. -/
  | badRequest (reason : String)
  /-- Creation options are not usable. -/
  | invalidOptions (reason : String)
  /-- Creation options are not of the form that is asked for. -/
  | malformedOptions
  /-- Settings are not usable. -/
  | invalidSettings (reason : String)
  /-- Jobs wait for each other; the jobs that could not be ordered. -/
  | cycle (jobs : List String)
  /-- A job that is not in the graph. -/
  | unknownJob (name : String)
  /-- A job could not be submitted for an asset. -/
  | submission (asset : AssetId) (job reason : String)
  /-- The store failed, perhaps because of another failure. -/
  | storage (reason : String) (source : Option String)
  /-- A service outside the catalog failed. -/
  | collaborator (name reason : String)
  /-- A text is no identifier. -/
  | invalidId (reason : String)
  /-- A value is not acceptable. -/
  | invalidInput (reason : String)
  /-- Something that should not happen. -/
  | internal (reason : String)
  /-- Files were to be spread over no job at all. -/
  | divisionByZero
  deriving DecidableEq, Repr

namespace Error

/-! ## Wording -/

/-- The wording of the errors that every part of the catalog shares. -/
def coreMessage? : Error → Option String
  | .invalidId reason => some ("invalid identifier: " ++ reason)
  | .invalidInput reason => some ("invalid input: " ++ reason)
  | .internal reason => some ("internal error: " ++ reason)
  | _ => none

/-- The wording of an error. -/
def message : Error → String
  | .notFound entity key => entity ++ " not found: " ++ key
  | .alreadyExists entity key => entity ++ " already exists: " ++ key
  | .unsupportedSource sourceType => "unsupported source type: " ++ sourceType
  | .notImplemented what => "not implemented: " ++ what
  | .conflict reason => "conflict: " ++ reason
  | .badRequest reason => "bad request: " ++ reason
  | .invalidOptions reason => "invalid creation options: " ++ reason
  | .malformedOptions => "invalid creation options: malformed"
  | .invalidSettings reason => "invalid configuration: " ++ reason
  | .cycle jobs => "cycle detected in job graph: " ++ Text.quotedList jobs
  | .unknownJob name => "job graph node not found: " ++ name
  | .submission asset job reason =>
    "failed to submit job " ++ job ++ " for asset " ++ asset.text ++ ": " ++ reason
  | .storage reason _ => "storage error: " ++ reason
  | .collaborator name reason => name ++ " error: " ++ reason
  | .invalidId reason => "core error: " ++ ("invalid identifier: " ++ reason)
  | .invalidInput reason => "core error: " ++ ("invalid input: " ++ reason)
  | .internal reason => "core error: " ++ ("internal error: " ++ reason)
  | .divisionByZero => "attempt to divide by zero"

/-- The wording of a shared error says that it is one, and then what it is. -/
theorem message_of_coreMessage? {e : Error} {text : String} (h : e.coreMessage? = some text) :
    e.message = "core error: " ++ text := by
  cases e <;> simp only [coreMessage?, reduceCtorEq, Option.some.injEq] at h
  all_goals subst h; rfl

/-- The wording of the failure that lies behind an error. -/
def cause? : Error → Option String
  | .storage _ source => source
  | e => e.coreMessage?

/-! ## Grading -/

/-- The HTTP status of an error. -/
def status : Error → Nat
  | .notFound .. => 404
  | .conflict _ => 409
  | .unsupportedSource _ | .notImplemented _ => 501
  | .alreadyExists .. | .badRequest _ | .invalidOptions _ | .malformedOptions => 400
  | .invalidId _ | .invalidInput _ | .internal _ => 400
  | .invalidSettings _ | .cycle _ | .unknownJob _ | .submission .. => 500
  | .storage .. | .collaborator .. | .divisionByZero => 500

/-! ## Common causes -/

/-- An identifier that could not be read. -/
def ofIdentifier (e : IdentifierError) : Error :=
  .invalidId e.message

/-- A task that does not exist. -/
def taskNotFound (id : TaskId) : Error :=
  .notFound "task" id.text

/-- An asset that does not exist. -/
def assetNotFound (id : AssetId) : Error :=
  .notFound "asset" id.text

end Error

/-! ## Requirements -/

/-- Fails with the given error unless a condition holds. -/
def require (condition : Bool) (e : Error) : Except Error Unit :=
  if condition then .ok () else .error e

theorem require_eq_ok_iff {condition : Bool} {e : Error} {u : Unit} :
    require condition e = .ok u ↔ condition = true := by
  cases condition <;> simp [require]

/-- The value, or the given error if there is none. -/
def orElseFail {α : Type} (e : Error) : Option α → Except Error α
  | some a => .ok a
  | none => .error e

theorem orElseFail_eq_ok_iff {α : Type} {e : Error} {a? : Option α} {a : α} :
    orElseFail e a? = .ok a ↔ a? = some a := by
  cases a? <;> simp [orElseFail]

/-- Checks that are made one after the other succeed if each of them does. -/
theorem bind_eq_ok_iff {α β : Type} {x : Except Error α} {f : α → Except Error β} {b : β} :
    x >>= f = .ok b ↔ ∃ a, x = .ok a ∧ f a = .ok b := by
  cases x <;> simp [bind, Except.bind]

/-- There is a result if something is computed from it. -/
theorem exists_ok_of_map_toOption {α β : Type} {x : Except Error α} {f : α → β} {b : β}
    (h : x.toOption.map f = some b) : ∃ a, x = .ok a ∧ f a = b := by
  cases x with
  | error e => cases h
  | ok a => exact ⟨a, rfl, Option.some.inj h⟩

end GeoAssets
