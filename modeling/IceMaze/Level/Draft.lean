import IceMaze.Level.Basic

/-!
A level as its author wrote it, and the checks that turn it into a level.
-/

namespace IceMaze

structure PatchDraft where
  map : Option TileMap
  origin : Option Coord

structure Draft where
  map : Option TileMap
  origin : Option Coord
  spawn : Option Coord
  keys : List Coord
  blocks : List Coord
  bag : Option Coord
  patches : List PatchDraft

def PatchDraft.blank : PatchDraft := ⟨none, none⟩

def Draft.blank : Draft := ⟨none, none, none, [], [], none, []⟩

/-- What a section must not lack. -/
def require {α : Type} (part : Section) : Option α → Except LevelError α
  | some a => .ok a
  | none => .error (.missingSection part)

/-- Refuse the first cell outside the rectangle. -/
def checkWithin (part : Section) (lo hi : Coord) : List Coord → Except LevelError Unit
  | [] => .ok ()
  | c :: cs =>
    if Coord.Within lo hi c then checkWithin part lo hi cs else .error (.outOfBounds part c)

/-- The cell behind the last one where a map may be placed without leaving the board. -/
def TileMap.lastOrigin (m : TileMap) : Coord :=
  ⟨boardWidth - m.width + 1, boardHeight - m.height + 1⟩

namespace PatchDraft

def build (levelOrigin : Coord) (d : PatchDraft) : Except LevelError Patch := do
  let tiles ← require .map d.map
  let origin ← require .origin d.origin
  checkWithin .origin levelOrigin tiles.lastOrigin [origin]
  return ⟨origin, tiles⟩

/-- Build the patches from number `n` on. -/
def buildAll (levelOrigin : Coord) : Nat → List PatchDraft → Except LevelError (List Patch)
  | _, [] => .ok []
  | n, d :: ds => do
    let p ← (d.build levelOrigin).mapError (.inPatch n)
    let ps ← buildAll levelOrigin (n + 1) ds
    return p :: ps

end PatchDraft

/-- The level, if nothing is missing and every cell lies where it may. -/
def Draft.build (d : Draft) : Except LevelError Level := do
  let tiles ← require .map d.map
  let origin := d.origin.getD .zero
  checkWithin .origin .zero tiles.lastOrigin [origin]
  let corner := tiles.corner origin
  let spawn ← require .puffle d.spawn
  checkWithin .puffle origin corner [spawn]
  checkWithin .keys origin corner d.keys
  checkWithin .blocks origin corner d.blocks
  checkWithin .bag origin corner d.bag.toList
  let patches ← PatchDraft.buildAll origin 1 d.patches
  return ⟨origin, spawn, tiles, d.keys, d.blocks, d.bag, patches⟩

end IceMaze
