import IceMaze.Level.Basic

/-!
The live board: a tile on each of its cells.

A board is known by `get?`: `get?_modify` says that an operation on one cell leaves the others as
they are.
-/

namespace IceMaze

structure Tile where
  kind : TileKind
  /-- The other end, if this is a paired teleporter. -/
  link : Option Coord
  /-- The number of the block that rests here. -/
  block : Option Nat
  key : Bool
  bag : Bool
  /-- A teleporter that has been used. -/
  plaid : Bool
  deriving DecidableEq

/-- A tile with nothing on it. -/
def Tile.fresh (kind : TileKind) : Tile := ⟨kind, none, none, false, false, false⟩

def boardArea : Nat := boardWidth * boardHeight

structure Board where
  tiles : Vector Tile boardArea
  deriving DecidableEq

namespace Board

theorem index_lt {c : Coord} (h : c.OnBoard) :
    c.y.toNat * boardWidth + c.x.toNat < boardArea := by
  rw [Coord.onBoard_iff] at h
  exact TileMap.index_lt (show c.x.toNat < 19 by omega) (show c.y.toNat < 15 by omega)

def index? (c : Coord) : Option (Fin boardArea) :=
  if h : c.OnBoard then some ⟨c.y.toNat * boardWidth + c.x.toNat, index_lt h⟩ else none

def cellAt (i : Nat) : Coord := ⟨Int.ofNat (i % boardWidth), Int.ofNat (i / boardWidth)⟩

/-- The board with the tile `f c` on each cell `c`. -/
def build (f : Coord → Tile) : Board := ⟨Vector.ofFn fun i => f (cellAt i)⟩

def empty : Board := build fun _ => .fresh .empty

def get? (b : Board) (c : Coord) : Option Tile := (index? c).map fun i => b.tiles[i]

def kind? (b : Board) (c : Coord) : Option TileKind := (b.get? c).map Tile.kind

/-- Off the board nothing changes. -/
def modify (b : Board) (c : Coord) (f : Tile → Tile) : Board :=
  match index? c with
  | some i => ⟨b.tiles.set i (f b.tiles[i])⟩
  | none => b

/-- Put a fresh tile of the kind on a cell. A tile's kind changes in no other way, so whatever was
on the tile is gone. -/
def changeTile (b : Board) (c : Coord) (kind : TileKind) : Board := b.modify c fun _ => .fresh kind

/-! ## Drawing a level -/

def linkPair (b : Board) (p : Coord × Coord) : Board :=
  (b.modify p.1 fun t => { t with link := some p.2 }).modify p.2 fun t =>
    { t with link := some p.1 }

def placeKey (b : Board) (c : Coord) : Board := b.modify c fun t => { t with key := true }

/-- A board over which a level is being drawn, and the teleporter on it that waits for the next. -/
structure Sketch where
  board : Board
  waiting : Option Coord

/-- Put the tile of the level on the cell. The second teleporter of two is linked at once, while
other cells still show what was there before. -/
def Sketch.visit (l : Level) (s : Sketch) (c : Coord) : Sketch :=
  let board := s.board.changeTile c (l.tileAt c)
  if l.tileAt c = .teleporter then
    match s.waiting with
    | none => ⟨board, some c⟩
    | some first => ⟨board.linkPair (first, c), none⟩
  else ⟨board, s.waiting⟩

/-- Draw a level, without its blocks and its coin bag, over what the board shows. Also gives the
number of teleporters that are left without a partner. -/
def drawOver (b : Board) (l : Level) : Board × Nat :=
  let s := boardCells.foldl (Sketch.visit l) ⟨b, none⟩
  (l.keys.foldl placeKey s.board, if s.waiting.isSome then 1 else 0)

/-- The teleporters of a level on the board, column by column. -/
def teleporters (l : Level) : List Coord := boardCells.filter fun c => l.tileAt c = .teleporter

/-- Neighbours in a list, two by two; one left over has no partner. -/
def pairs {α : Type} : List α → List (α × α)
  | a :: b :: rest => (a, b) :: pairs rest
  | _ => []

/-- What `drawOver` leaves on any board, with all tiles there before the first link is made. -/
def draw (l : Level) : Board :=
  let bare := build fun c => .fresh (l.tileAt c)
  let linked := (pairs (teleporters l)).foldl linkPair bare
  l.keys.foldl placeKey linked

/-- How many teleporters of the level have no partner. -/
def unpaired (l : Level) : Nat := (teleporters l).length % 2

/-! ## The secret -/

/-- What the secret makes of a tile, if it changes. -/
def revealed? : TileKind → Option TileKind
  | .fakeTemporaryWall => some .wall
  | .fakePassableWall | .fakeImpassableWall => some .ice
  | _ => none

/-- The cells that the secret would change, column by column, with their new kinds. -/
def secrets (b : Board) : List (Coord × TileKind) :=
  boardCells.filterMap fun c => ((b.kind? c).bind revealed?).map fun k => (c, k)

def revealSecret (b : Board) : Board :=
  b.secrets.foldl (fun b p => b.changeTile p.1 p.2) b

/-! ## Cells -/

theorem index?_eq_some {c : Coord} {i : Fin boardArea} :
    index? c = some i ↔ c.OnBoard ∧ c.y.toNat * boardWidth + c.x.toNat = i.val := by
  unfold index?
  split
  · rename_i h
    simp [h, Fin.ext_iff]
  · rename_i h
    simp [h]

theorem index?_inj {c d : Coord} {i : Fin boardArea} (hc : index? c = some i)
    (hd : index? d = some i) : c = d := by
  obtain ⟨hc, hi⟩ := index?_eq_some.1 hc
  obtain ⟨hd, hj⟩ := index?_eq_some.1 hd
  rw [Coord.onBoard_iff] at hc hd
  have h := (TileMap.index_inj (show d.x.toNat < boardWidth from (by omega : d.x.toNat < 19))
    (show c.x.toNat < boardWidth from (by omega : c.x.toNat < 19))).1 (hi.trans hj.symm)
  cases c
  cases d
  simp only [Coord.mk.injEq] at *
  omega

@[simp] theorem get?_isSome {b : Board} {c : Coord} : (b.get? c).isSome = decide c.OnBoard := by
  unfold get? index?
  split <;> simp_all

theorem get?_modify {b : Board} {c d : Coord} {f : Tile → Tile} :
    (b.modify c f).get? d = if d = c then (b.get? d).map f else b.get? d := by
  by_cases h : d = c
  · subst h
    cases hd : index? d <;> simp [modify, get?, hd]
  · cases hc : index? c with
    | none => simp [modify, get?, hc, h]
    | some i =>
      cases hd : index? d with
      | none => simp [modify, get?, hc, hd, h]
      | some j =>
        have : i.val ≠ j.val := fun e => h (index?_inj hd (Fin.ext e ▸ hc))
        simp [modify, get?, hc, hd, h, Vector.getElem_set, this]

end Board
end IceMaze
