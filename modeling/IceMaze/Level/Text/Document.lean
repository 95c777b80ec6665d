import IceMaze.Level.Draft
import IceMaze.Level.Text.CellList
import IceMaze.Level.Text.Piece
import IceMaze.Level.Text.TileRow

/-!
Whole level texts, and files of several levels.

A level is the base part and then one part for each `alt`, which takes a map and an origin only.
Levels of a file are separated by lines of three dashes.
-/

namespace IceMaze.LevelText

open Text

def fillMap (slot : Option TileMap) (body : List Char) : Except LevelError TileMap := do
  let tiles ← readMap body
  if slot.isSome then .error (.duplicateSection .map) else return tiles

def fillCell (part : Section) (slot : Option Coord) (line : List Char) (cells : List Coord) :
    Except LevelError Coord :=
  if slot.isSome then .error (.duplicateSection part)
  else match cells with
    | [c] => .ok c
    | _ => .error (.malformed part.name (String.ofList line))

def fillCells (part : Section) (slot cells : List Coord) : Except LevelError (List Coord) :=
  if slot ≠ [] then .error (.duplicateSection part) else .ok cells

/-- The name and the cells of a directive line. -/
def readDirective (line : List Char) : Except LevelError (String × List Coord) :=
  let name := nameOf line
  if name = [] then .error (.malformed (String.ofList line) (String.ofList line))
  else do
    let cells ← readCells name (afterName line)
    return (String.ofList name, cells)

def addDirective (d : Draft) (line : List Char) : Except LevelError Draft := do
  let (name, cells) ← readDirective line
  match Section.ofName? name with
  | some .origin => return { d with origin := ← fillCell .origin d.origin line cells }
  | some .puffle => return { d with spawn := ← fillCell .puffle d.spawn line cells }
  | some .bag => return { d with bag := ← fillCell .bag d.bag line cells }
  | some .keys => return { d with keys := ← fillCells .keys d.keys cells }
  | some .blocks => return { d with blocks := ← fillCells .blocks d.blocks cells }
  | some .map | none => .error (.unknownSection name)

def addPatchDirective (d : PatchDraft) (line : List Char) : Except LevelError PatchDraft := do
  let (name, cells) ← readDirective line
  match Section.ofName? name with
  | some .origin => return { d with origin := ← fillCell .origin d.origin line cells }
  | _ => .error (.baseOnlySection name)

def addPiece (d : Draft) : Piece → Except LevelError Draft
  | .map body => return { d with map := ← fillMap d.map body }
  | .directive line => addDirective d line
  | .unterminated => .error .unterminatedMap
  | .alt => .ok d

/-- Add a piece to patch number `n`. -/
def addPatchPiece (n : Nat) (d : PatchDraft) : Piece → Except LevelError PatchDraft
  | .map body => do
    let tiles ← (fillMap d.map body).mapError (.inPatch n)
    return { d with map := tiles }
  | .directive line => (addPatchDirective d line).mapError (.inPatch n)
  | .unterminated => .error .unterminatedMap
  | .alt => .ok d

/-- Read the patches from number `n` on. -/
def readPatches : Nat → List (List Piece) → Except LevelError (List PatchDraft)
  | _, [] => .ok []
  | n, pieces :: rest => do
    let p ← pieces.foldlM (addPatchPiece n) .blank
    let ps ← readPatches (n + 1) rest
    return p :: ps

def readDraft (pieces : List Piece) : Except LevelError Draft := do
  let parts := splitWhere (· == .alt) pieces
  let base ← (parts.headD []).foldlM addPiece .blank
  let patches ← readPatches 1 parts.tail
  return { base with patches := patches }

def readLevel (s : List Char) : Except LevelError Level := do
  let draft ← readDraft (Piece.scan s)
  draft.build

/-! ## Files of levels -/

def isSeparator (line : List Char) : Bool := trim line == ['-', '-', '-']

/-- The text of each level of a file that is not blank. -/
def chunks (s : List Char) : List (List Char) :=
  ((splitWhere isSeparator (lines s)).map fun ls => ls.flatMap (· ++ ['\n'])).filter
    fun chunk => trim chunk ≠ []

/-- Read the levels from number `n` on. -/
def readChunks : Nat → List (List Char) → Except LevelError (List Level)
  | _, [] => .ok []
  | n, chunk :: rest => do
    let l ← (readLevel chunk).mapError (.inLevel n)
    let ls ← readChunks (n + 1) rest
    return l :: ls

def readLevels (s : List Char) : Except LevelError (List Level) := readChunks 1 (chunks s)

/-! ## Writing -/

def mapSection (tiles : TileMap) : List Char :=
  "map\n".toList ++ writeMap tiles ++ ";\n".toList

def cellSection (part : Section) (cells : List Coord) : List Char :=
  part.name.toList ++ writeCells cells ++ ['\n']

/-- The sections of the base part. An origin at zero and empty lists are left out. -/
def baseSections (l : Level) : List (List Char) :=
  [mapSection l.tiles] ++
  (if l.origin = .zero then [] else [cellSection .origin [l.origin]]) ++
  [cellSection .puffle [l.spawn]] ++
  (if l.keys = [] then [] else [cellSection .keys l.keys]) ++
  (if l.blocks = [] then [] else [cellSection .blocks l.blocks]) ++
  (l.bag.toList.map fun c => cellSection .bag [c])

def patchSections (p : Patch) : List (List Char) :=
  [mapSection p.tiles, cellSection .origin [p.origin]]

def writeLevel (l : Level) : List Char :=
  (baseSections l).flatten ++
    l.patches.flatMap fun p => "alt\n".toList ++ (patchSections p).flatten

def separator : List Char := "---\n".toList

def writeLevels : List Level → List Char
  | [] => []
  | [l] => writeLevel l
  | l :: m :: rest => writeLevel l ++ separator ++ writeLevels (m :: rest)

end IceMaze.LevelText

namespace IceMaze.Level

/-- Read one level. -/
def ofText (s : String) : Except LevelError Level := LevelText.readLevel s.toList

/-- Read a file of levels. -/
def listOfText (s : String) : Except LevelError (List Level) := LevelText.readLevels s.toList

def toText (l : Level) : String := String.ofList (LevelText.writeLevel l)

def listToText (ls : List Level) : String := String.ofList (LevelText.writeLevels ls)

end IceMaze.Level
