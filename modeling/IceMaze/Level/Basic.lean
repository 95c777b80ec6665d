import IceMaze.Level.TileMap

/-!
Levels: what is placed where on the board, before play.

All cells are absolute board cells. `Level.WellPlaced` is what a level must satisfy to be accepted
by its readers.
-/

namespace IceMaze

/-- A rectangle of tiles that may replace a part of the level when it is loaded. -/
structure Patch where
  origin : Coord
  tiles : TileMap
  deriving DecidableEq

structure Level where
  /-- The cell of the map's first tile. -/
  origin : Coord
  spawn : Coord
  tiles : TileMap
  keys : List Coord
  blocks : List Coord
  bag : Option Coord
  patches : List Patch
  deriving DecidableEq

/-- The cell diagonally behind the last cell of a map that is placed at `origin`. -/
def TileMap.corner (m : TileMap) (origin : Coord) : Coord :=
  ⟨origin.x + m.width, origin.y + m.height⟩

namespace Level

def corner (l : Level) : Coord := l.tiles.corner l.origin

def isOutOfBounds (l : Level) (c : Coord) : Bool := !decide (Coord.Within l.origin l.corner c)

/-- The tile at a cell; the level is empty outside its map. -/
def tileAt (l : Level) (c : Coord) : TileKind :=
  if l.isOutOfBounds c then .empty
  else (l.tiles.get? (c.x - l.origin.x).toNat (c.y - l.origin.y).toNat).getD .empty

/-- The number of melts that clear the level. -/
def totalTileCount (l : Level) : Nat := l.tiles.cells.toList.foldr (fun k n => k.meltValue + n) 0

/-- Write a patch over the map of a level that starts at `origin`. -/
def applyPatch (origin : Coord) (tiles : TileMap) (p : Patch) : TileMap :=
  tiles.overlay (p.origin.x - origin.x).toNat (p.origin.y - origin.y).toNat p.tiles

/-- The layout to play: with its patches applied, in order, or without any. -/
def variant (l : Level) (alt : Bool) : Level :=
  { l with
    patches := []
    tiles := if alt then l.patches.foldl (applyPatch l.origin) l.tiles else l.tiles }

/-- The map is not empty and ends on the board when it is placed at `origin`. -/
def FitsAt (m : TileMap) (origin : Coord) : Prop :=
  0 < m.width ∧ 0 < m.height ∧
    (m.corner origin).x ≤ boardWidth ∧ (m.corner origin).y ≤ boardHeight

structure WellPlaced (l : Level) : Prop where
  origin_nonneg : 0 ≤ l.origin.x ∧ 0 ≤ l.origin.y
  fits : FitsAt l.tiles l.origin
  spawn_within : Coord.Within l.origin l.corner l.spawn
  keys_within : ∀ c ∈ l.keys, Coord.Within l.origin l.corner c
  blocks_within : ∀ c ∈ l.blocks, Coord.Within l.origin l.corner c
  bag_within : ∀ c ∈ l.bag, Coord.Within l.origin l.corner c
  patches_after : ∀ p ∈ l.patches, l.origin.x ≤ p.origin.x ∧ l.origin.y ≤ p.origin.y
  patches_fit : ∀ p ∈ l.patches, FitsAt p.tiles p.origin

end Level
end IceMaze
