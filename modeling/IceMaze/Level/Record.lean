import IceMaze.Json.Decode
import IceMaze.Json.Print
import IceMaze.Level.Draft

/-!
Levels as JSON records with one-letter keys: map `m`, origin `o`, spawn `s`, keys `k`, blocks `b`,
coin bag `c` and patches `a`.

Maps are arrays of rows of tile codes, and a cell is a pair of numbers. A file is an array of
levels.
-/

namespace IceMaze

structure PatchRecord where
  map : Option (List (List Int))
  origin : Option Coord

structure LevelRecord where
  map : Option (List (List Int))
  origin : Option Coord
  spawn : Option Coord
  keys : List Coord
  blocks : List Coord
  bag : Option Coord
  patches : List PatchRecord

namespace LevelRecord

open Json

/-! ## Reading -/

/-- A number of 32 bits with a sign. -/
def coordinate? (v : Json) : Option Int := v.toInt? (-2147483648) 2147483648

/-- A number of 64 bits with a sign; whether it is the code of a tile is seen later. -/
def code? (v : Json) : Option Int := v.toInt? (-9223372036854775808) 9223372036854775808

def cell? (v : Json) : Option Coord := do
  match ← toList? coordinate? v with
  | [x, y] => some ⟨x, y⟩
  | _ => none

def rows? (v : Json) : Option (List (List Int)) :=
  toList? (toList? code?) v

def patch? (v : Json) : Option PatchRecord := do
  match ← fields? ["m", "o"] .refused v with
  | [m, o] => return ⟨← optional? rows? m, ← optional? cell? o⟩
  | _ => none

def ofJson? (v : Json) : Option LevelRecord := do
  match ← fields? ["m", "o", "s", "k", "b", "c", "a"] .refused v with
  | [m, o, s, k, b, c, a] =>
    return {
      map := ← optional? rows? m
      origin := ← optional? cell? o
      spawn := ← optional? cell? s
      keys := ← withDefault? [] (toList? cell?) k
      blocks := ← withDefault? [] (toList? cell?) b
      bag := ← optional? cell? c
      patches := ← withDefault? [] (toList? patch?) a }
  | _ => none

def kindOfCode? (code : Int) : Option TileKind :=
  if 0 ≤ code then TileKind.ofCode? code.toNat else none

/-- Decode the cells of row `row` from column `col` on. -/
def decodeRow (row : Nat) : Nat → List Int → Except LevelError (List TileKind)
  | _, [] => .ok []
  | col, code :: codes =>
    match kindOfCode? code with
    | none => .error (.unknownTileCode code col row)
    | some kind => do
      let kinds ← decodeRow row (col + 1) codes
      return kind :: kinds

/-- Decode the rows from number `row` on. -/
def decodeRows : Nat → List (List Int) → Except LevelError (List (List TileKind))
  | _, [] => .ok []
  | row, codes :: rest => do
    let kinds ← decodeRow row 0 codes
    let more ← decodeRows (row + 1) rest
    return kinds :: more

def decodeMap (rows : List (List Int)) : Except LevelError TileMap := do
  let kinds ← decodeRows 0 rows
  TileMap.ofRows kinds

def decodeMap? : Option (List (List Int)) → Except LevelError (Option TileMap)
  | none => .ok none
  | some rows => do return some (← decodeMap rows)

/-- Decode the patches from number `n` on. -/
def decodePatches : Nat → List PatchRecord → Except LevelError (List PatchDraft)
  | _, [] => .ok []
  | n, p :: ps => do
    let map ← (decodeMap? p.map).mapError (.inPatch n)
    let rest ← decodePatches (n + 1) ps
    return ⟨map, p.origin⟩ :: rest

def toDraft (r : LevelRecord) : Except LevelError Draft := do
  let map ← decodeMap? r.map
  let patches ← decodePatches 1 r.patches
  return ⟨map, r.origin, r.spawn, r.keys, r.blocks, r.bag, patches⟩

def toLevel (r : LevelRecord) : Except LevelError Level := do
  let draft ← r.toDraft
  draft.build

/-- The level that a value describes. -/
def readLevel (v : Json) : Except LevelError Level :=
  match ofJson? v with
  | some r => r.toLevel
  | none => .error .json

/-- Read the levels from number `n` on. -/
def readLevels : Nat → List Json → Except LevelError (List Level)
  | _, [] => .ok []
  | n, v :: vs => do
    let l ← (readLevel v).mapError (.inLevel n)
    let ls ← readLevels (n + 1) vs
    return l :: ls

/-- Containers may be nested this deep in a file. -/
def maxDepth : Nat := 127

/-- The values of a file, with repeated keys resolved. -/
def file? (s : List Char) : Option (List Json) := do
  let v ← Json.read? s
  let v ← v.normalize? maxDepth
  v.toItems?

/-! ## Writing -/

def cellJson (c : Coord) : Json := .arr [.int c.x, .int c.y]

def cellsJson (cells : List Coord) : Json := .arr (cells.map cellJson)

def mapJson (m : TileMap) : Json :=
  .arr (m.rows.map fun row => .arr (row.map fun k => .int k.code))

def member (key : String) (v : Json) : Option String × Json := (some key, v)

def patchJson (p : Patch) : Json :=
  .obj [member "m" (mapJson p.tiles), member "o" (cellJson p.origin)]

/-- An origin at zero and empty lists are left out. -/
def levelJson (l : Level) : Json :=
  .obj <|
    [member "m" (mapJson l.tiles)] ++
    (if l.origin = .zero then [] else [member "o" (cellJson l.origin)]) ++
    [member "s" (cellJson l.spawn)] ++
    (if l.keys = [] then [] else [member "k" (cellsJson l.keys)]) ++
    (if l.blocks = [] then [] else [member "b" (cellsJson l.blocks)]) ++
    (l.bag.toList.map fun c => member "c" (cellJson c)) ++
    (if l.patches = [] then [] else [member "a" (.arr (l.patches.map patchJson))])

end LevelRecord

namespace Level

/-- Read one level from JSON. -/
def ofJsonText (s : String) : Except LevelError Level :=
  match Json.read? s.toList with
  | some v => LevelRecord.readLevel v
  | none => .error .json

/-- Read a JSON file of levels. -/
def listOfJsonText (s : String) : Except LevelError (List Level) :=
  match LevelRecord.file? s.toList with
  | some vs => LevelRecord.readLevels 1 vs
  | none => .error .json

def listToJsonText (ls : List Level) : String :=
  String.ofList (Json.compact (.arr (ls.map LevelRecord.levelJson)))

end Level
end IceMaze
