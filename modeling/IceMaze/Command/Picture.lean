import IceMaze.Game.State
import IceMaze.Text.Blank

/-!
A game as text: the board, a character a cell, and a line with the counters.
-/

namespace IceMaze

def TileKind.char : TileKind → Char
  | .empty => ' '
  | .ice => '.'
  | .thickIce => ':'
  | .wall => '#'
  | .goal => 'G'
  | .teleporter => 'T'
  | .lock => 'L'
  | .button => 'o'
  | .fakeTemporaryWall => '%'
  | .fakePassableWall => '&'
  | .fakeImpassableWall => '!'
  | .blockHole => 'O'
  | .plaidTeleporter => 't'
  | .water => '~'

/-- What lies on a tile hides the tile, and a block hides a key. -/
def Tile.char (t : Tile) : Char :=
  if t.block.isSome then 'B'
  else if t.key then 'k'
  else if t.bag then '$'
  else if t.kind = .teleporter ∧ t.plaid then 't'
  else t.kind.char

namespace Game

def cellChar (g : Game) (c : Coord) : Char :=
  if g.puffle.pos = c then 'P' else ((g.board.get? c).map Tile.char).getD ' '

/-- The rows of the board, without blanks at their ends. -/
def picture (g : Game) : String :=
  String.ofList (boardRows.flatMap fun row => Text.trimEnd (row.map g.cellChar) ++ ['\n'])

def summary (g : Game) : String :=
  s!"level {g.levelNumber}/{g.levels.length}  score {g.score}  melted {g.melted}/{g.total}  " ++
  s!"keys {g.puffle.keys}  fails {g.timesFailed}  ticks {g.ticks}  {g.phase.name}"

end Game
end IceMaze
