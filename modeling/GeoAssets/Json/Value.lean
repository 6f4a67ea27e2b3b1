/-!
# JSON values

The value of a JSON document. An object is the list of its members, in which no name should occur
twice; members are found by name, so their order carries no meaning. A number is an integer if it is
written without fraction and exponent and fits 64 bits, signed or unsigned; every other number keeps
its literal.
-/

namespace GeoAssets

/-- A JSON value. -/
inductive Json where
  | null
  | bool (value : Bool)
  | int (value : Int)
  /-- A number that is no 64-bit integer, as it was written. -/
  | real (literal : String)
  | string (text : String)
  | array (items : List Json)
  | object (members : List (String × Json))
  deriving Inhabited, Repr

namespace Json

/-! ## Members -/

/-- The member of an object with a given name; `none` for other values too. -/
def member? (name : String) : Json → Option Json
  | .object members => members.lookup name
  | _ => none

/-! ## Integers -/

/-- Decides whether an integer fits 64 bits, signed or unsigned. -/
def fits64 (n : Int) : Bool :=
  Int64.minValue.toInt ≤ n && n < UInt64.size

end Json

end GeoAssets
