import IceMaze.Coord

/-!
What can be wrong with a level, and how it is said.

Rows, columns and cells are numbered from 0; patches and levels from 1.
-/

namespace IceMaze

/-- The parts of a level that its author writes down. -/
inductive Section where
  | map | origin | puffle | keys | blocks | bag
  deriving DecidableEq

namespace Section

def all : List Section := [.map, .origin, .puffle, .keys, .blocks, .bag]

def name : Section → String
  | .map => "map"
  | .origin => "origin"
  | .puffle => "puffle"
  | .keys => "keys"
  | .blocks => "blocks"
  | .bag => "bag"

def ofName? (s : String) : Option Section := all.find? (·.name == s)

theorem ofName?_name (s : Section) : ofName? s.name = some s := by cases s <;> decide

end Section

inductive LevelError where
  | emptyMap
  | unknownTile (token : String) (row : Nat) (map : String)
  | invalidCount (token : String) (row : Nat)
  | unknownTileCode (code : Int) (col row : Nat)
  | rowLength (row col expected found : Nat)
  | tooLarge (width height : Nat)
  | missingSection (part : Section)
  | duplicateSection (part : Section)
  | unknownSection (name : String)
  /-- A section that is not allowed in a patch. -/
  | baseOnlySection (name : String)
  | malformed (name text : String)
  | unterminatedMap
  | outOfBounds (part : Section) (cell : Coord)
  | json
  | inPatch (number : Nat) (cause : LevelError)
  | inLevel (number : Nat) (cause : LevelError)
  deriving DecidableEq

namespace LevelError

def message : LevelError → String
  | .emptyMap => "map section is empty"
  | .unknownTile token row map => s!"unknown tile `{token}` in row {row} of map:\n{map}"
  | .invalidCount token row => s!"invalid repeat count in `{token}` (row {row})"
  | .unknownTileCode code col row => s!"{code} is not a valid tile code (cell {col},{row})"
  | .rowLength row col expected found =>
    s!"row {row} has {found} tiles but the map is {expected} wide (error in {col},{row})"
  | .tooLarge width height => s!"map is {width}x{height}, bigger than the maximum allowed"
  | .missingSection part => s!"missing `{part.name}` section"
  | .duplicateSection part => s!"`{part.name}` given twice"
  | .unknownSection name => s!"unexpected `{name}` section: unknown section"
  | .baseOnlySection name =>
    s!"unexpected `{name}` section: alt patches only take a map and an origin"
  | .malformed name text => s!"malformed `{name}` section: `{text}`"
  | .unterminatedMap => "map section is not terminated with `;`"
  | .outOfBounds part cell =>
    s!"coordinate ({cell.x},{cell.y}) in `{part.name}` is not within bounds of map"
  | .json => "not a JSON level"
  | .inPatch number cause => s!"patch {number}: {cause.message}"
  | .inLevel number cause => s!"level {number}: {cause.message}"

end LevelError
end IceMaze
