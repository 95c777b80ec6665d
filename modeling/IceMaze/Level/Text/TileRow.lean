import IceMaze.Level.TileMap
import IceMaze.Text.Blank
import IceMaze.Text.Numeric
import IceMaze.Text.Split

/-!
Maps in level texts: one row a line, written as runs of equal tiles.

A run is a tile's word, with a count in front if there are several.
-/

namespace IceMaze.LevelText

open Text

/-- Read one run of row `row` of the map text `map`. -/
def readRun (map : List Char) (row : Nat) (run : List Char) : Except LevelError (List TileKind) :=
  let count := run.takeWhile isDigit
  match TileKind.ofToken? (String.ofList (run.dropWhile isDigit)) with
  | none => .error (.unknownTile (String.ofList run) row (String.ofList map))
  | some kind =>
    let n := if count = [] then 1 else value count
    if 1 ≤ n ∧ n ≤ boardWidth then .ok (List.replicate n kind)
    else .error (.invalidCount (String.ofList run) row)

def readRow (map : List Char) (row : Nat) (line : List Char) :
    Except LevelError (List TileKind) := do
  let runs ← ((splitAt ',' line).map trim).mapM (readRun map row)
  return runs.flatten

/-- Read the rows from number `row` on. -/
def readRows (map : List Char) : Nat → List (List Char) → Except LevelError (List (List TileKind))
  | _, [] => .ok []
  | row, line :: rest => do
    let cells ← readRow map row line
    let more ← readRows map (row + 1) rest
    return cells :: more

/-- The trimmed lines that are not blank. -/
def rowLines (map : List Char) : List (List Char) :=
  ((lines map).map trim).filter (· ≠ [])

/-- Read the body of a map. -/
def readMap (body : List Char) : Except LevelError TileMap := do
  let map := trim body
  let rows ← readRows map 0 (rowLines map)
  TileMap.ofRows rows

/-- The lengths of the maximal runs of equal tiles. -/
def runs : List TileKind → List (Nat × TileKind)
  | [] => []
  | k :: row =>
    match runs row with
    | (n, j) :: rest => if j = k then (n + 1, k) :: rest else (1, k) :: (n, j) :: rest
    | [] => [(1, k)]

def writeRun : Nat × TileKind → List Char
  | (n, k) => (if n = 1 then [] else digits n) ++ k.token.toList

def writeRow (row : List TileKind) : List Char := joinWith ',' ((runs row).map writeRun)

def writeMap (m : TileMap) : List Char := joinWith '\n' (m.rows.map writeRow)

end IceMaze.LevelText
