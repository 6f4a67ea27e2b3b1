/-!
# Log formats

How log lines are written. Any name but that of the structured format stands for the readable one.
-/

namespace GeoAssets

/-- How log lines are written. -/
inductive LogFormat where
  /-- One JSON document per line. -/
  | json
  /-- For people to read. -/
  | pretty
  deriving DecidableEq, Repr

/-- The format of a name; ASCII letters count in either case. -/
def LogFormat.ofName (name : String) : LogFormat :=
  if name.toList.map Char.toLower = ['j', 's', 'o', 'n'] then .json else .pretty

end GeoAssets
