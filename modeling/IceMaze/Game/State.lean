import IceMaze.Board
import IceMaze.Body
import IceMaze.Game.Event
import IceMaze.Random
import IceMaze.Rules.Basic

/-!
The state of a game, and what can be asked of it.
-/

namespace IceMaze

inductive Phase where
  /-- No level has been started yet. -/
  | idle
  | playing
  /-- The last level has been completed. -/
  | finished
  deriving DecidableEq

def Phase.name : Phase → String
  | .idle => "Idle"
  | .playing => "Playing"
  | .finished => "Finished"

inductive GameError where
  | noLevels
  | noSuchLevel (number count : Nat)
  deriving DecidableEq

def GameError.message : GameError → String
  | .noLevels => "level registry is empty"
  | .noSuchLevel number count => s!"level {number} does not exist (registry has {count})"

structure Game where
  levels : List Level
  rules : Rules
  random : Random
  phase : Phase
  /-- Counted from 1; 0 before the first level is started. -/
  levelNumber : Nat
  /-- The level in play, its patches applied or dropped. -/
  layout : Option Level
  altApplied : Bool
  board : Board
  puffle : Puffle
  blocks : List Block
  /-- The points of completed levels. Points are added up without a bound; they are those of 32 bits
  as long as the score is below `2 ^ 32`. -/
  pointsAtStart : Nat
  pointsInLevel : Nat
  melted : Nat
  total : Nat
  /-- The resets since the level was loaded. Past the largest number of 32 bits the count starts
  again at 0. -/
  timesFailed : UInt32
  solvedPrevious : Bool
  /-- The puffle has landed, and may turn out to be stuck once everything rests. -/
  stuckCheck : Bool
  ticks : Nat
  /-- The events of the last tick and of what has been done since. -/
  events : List Event
  notes : List Note

namespace Game

/-- A game over some levels, none of them started. -/
def new (levels : List Level) (rules : Rules) (seed : UInt64) : Except GameError Game :=
  if levels = [] then .error .noLevels
  else .ok {
    levels := levels
    rules := rules
    random := .ofSeed seed
    phase := .idle
    levelNumber := 0
    layout := none
    altApplied := false
    board := .empty
    puffle := .new .zero
    blocks := []
    pointsAtStart := 0
    pointsInLevel := 0
    melted := 0
    total := 0
    timesFailed := 0
    solvedPrevious := false
    stuckCheck := false
    ticks := 0
    events := []
    notes := [] }

def score (g : Game) : Nat := g.pointsAtStart + g.pointsInLevel

/-- Nothing moves, and no block is about to. -/
def isSettled (g : Game) : Bool :=
  !g.puffle.isMoving && g.blocks.all fun b => !b.isMoving && b.momentum.isNone

def emit (g : Game) (e : Event) : Game := { g with events := g.events ++ [e] }

def note (g : Game) (n : Note) : Game := { g with notes := g.notes ++ [n] }

def clearNotes (g : Game) : Game := { g with notes := [] }

def modifyTile (g : Game) (c : Coord) (f : Tile → Tile) : Game :=
  { g with board := g.board.modify c f }

def changeTile (g : Game) (c : Coord) (k : TileKind) : Game :=
  emit { g with board := g.board.changeTile c k } (.tileChanged c k)

def setBlock (g : Game) (i : Nat) (b : Block) : Game := { g with blocks := g.blocks.set i b }

/-! ## Who is where -/

/-- The block that rests on a cell or moves to it. -/
def blockAt (g : Game) (c : Coord) : Option Nat :=
  match (g.board.get? c).bind Tile.block with
  | some i => some i
  | none => g.blocks.findIdx? fun b => b.target = c

/-- The puffle stands on the cell or moves to it. -/
def puffleHolds (g : Game) (c : Coord) : Bool :=
  g.puffle.pos = c || g.puffle.motion.any fun m => m.target = c

/-- Whether a block on the cell can be pushed one cell on. A lock does not stop it. -/
def canPush (g : Game) (c : Coord) (d : Direction) : Bool :=
  let next := c.step d
  !g.puffleHolds next &&
    match g.board.kind? next with
    | some k => !g.rules.forbids k && (g.blockAt next).isNone
    | none => false

/-- Whether the puffle can start a move right now. There is no answer if the cell names a block
that the game does not have. -/
def canMove? (g : Game) (d : Direction) : Option Bool :=
  let next := g.puffle.pos.step d
  match g.board.kind? next with
  | none => some false
  | some k =>
    if g.rules.forbids k || (k = .lock && g.puffle.keys = 0) then some false
    else match g.blockAt next with
      | some i => g.blocks[i]?.map fun b => !b.isMoving && g.canPush next d
      | none => some true

def canMove (g : Game) (d : Direction) : Bool := (g.canMove? d).getD false

/-- Whether no direction is left. The directions are asked in turn, up to the first that can be
taken, and one without an answer leaves the whole question without one. -/
def isStuck? (g : Game) : Option Bool := Direction.all.allM fun d => (g.canMove? d).map not

def isStuck (g : Game) : Bool := Direction.all.all fun d => !g.canMove d

end Game
end IceMaze
