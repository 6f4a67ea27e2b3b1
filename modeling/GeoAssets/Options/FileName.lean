import GeoAssets.Text.Split

/-!
# File names

What the location of a source file says about the file: its name, the layer that it holds, and
whether it is a zip archive.
-/

namespace GeoAssets.FileName

/-- The name of a file: what follows the last slash of its location. -/
def ofLocation (location : String) : String :=
  Text.lastPiece '/' location

/-- The layer that a file holds: its name up to the first dot. -/
def layer (location : String) : String :=
  Text.firstPiece '.' (ofLocation location)

/-- What follows the last dot of a name. A name without a dot, or with a dot at its beginning only,
has no extension, nor has the name of the parent folder. -/
def extension? (name : String) : Option String :=
  if name = ".." then none
  else
    match (Text.pieces '.' name.toList).reverse with
    | [] | [_] | [_, []] => none
    | last :: _ => some (String.ofList last)

/-- Decides whether a file is a zip archive. -/
def isZipped (location : String) : Bool :=
  match extension? (ofLocation location) with
  | some ext => ext.toList.map Char.toLower == ['z', 'i', 'p']
  | none => false

end GeoAssets.FileName
