/-!
The kinds of tile, with the code and the word by which levels name them.

`ofCode?_code` and `ofToken?_token` say that both namings can be read back.
-/

namespace IceMaze

inductive TileKind where
  | empty
  | ice
  | thickIce
  | wall
  | goal
  | teleporter
  | lock
  | button
  /-- Passable until the secret is revealed, then a wall. -/
  | fakeTemporaryWall
  /-- Passable, and ice once the secret is revealed. -/
  | fakePassableWall
  /-- Solid until the secret is revealed, then ice. -/
  | fakeImpassableWall
  | blockHole
  | plaidTeleporter
  | water
  deriving DecidableEq, Inhabited

namespace TileKind

/-- Every kind, in the order of the codes. -/
def all : List TileKind :=
  [.empty, .ice, .thickIce, .wall, .goal, .teleporter, .lock, .button, .fakeTemporaryWall,
    .fakePassableWall, .fakeImpassableWall, .blockHole, .plaidTeleporter, .water]

def code : TileKind → Nat
  | .empty => 0
  | .ice => 1
  | .thickIce => 2
  | .wall => 3
  | .goal => 4
  | .teleporter => 5
  | .lock => 6
  | .button => 7
  | .fakeTemporaryWall => 8
  | .fakePassableWall => 9
  | .fakeImpassableWall => 10
  | .blockHole => 11
  | .plaidTeleporter => 12
  | .water => 13

def ofCode? (n : Nat) : Option TileKind := all[n]?

theorem ofCode?_code (k : TileKind) : ofCode? k.code = some k := by cases k <;> rfl

/-- The word for the kind in level texts. -/
def token : TileKind → String
  | .empty => "empty"
  | .ice => "ice"
  | .thickIce => "thick"
  | .wall => "wall"
  | .goal => "goal"
  | .teleporter => "tp"
  | .lock => "lock"
  | .button => "button"
  | .fakeTemporaryWall => "faketemp"
  | .fakePassableWall => "fakepass"
  | .fakeImpassableWall => "fakeimpass"
  | .blockHole => "hole"
  | .plaidTeleporter => "plaid"
  | .water => "water"

def ofToken? (s : String) : Option TileKind := all.find? (·.token == s)

theorem ofToken?_token (k : TileKind) : ofToken? k.token = some k := by cases k <;> decide

/-- How many melts the tile adds to a level's total. A used teleporter never melts. -/
def meltValue : TileKind → Nat
  | .thickIce => 2
  | .ice | .lock | .fakePassableWall | .fakeImpassableWall => 1
  | _ => 0

/-- Nothing can move onto these. -/
def isImpassable : TileKind → Bool
  | .wall | .water | .fakeImpassableWall => true
  | _ => false

end TileKind
end IceMaze
