import IceMaze.Game.State

/-!
Starting a move: what melts, which block is pushed, and the button that reveals the secret.

Effects on the cell that is left come at once, those on the cell that is entered when the move
ends; only a button works at once.
-/

namespace IceMaze.Game

/-- What a tile turns into when the puffle leaves it. -/
def melt? : TileKind → Option TileKind
  | .ice => some .water
  | .thickIce => some .ice
  | _ => none

/-- Leave a cell. -/
def leave (g : Game) (c : Coord) : Game :=
  match (g.board.kind? c).bind melt? with
  | none => g
  | some k =>
    let g := g.changeTile c k
    { g with melted := g.melted + 1, pointsInLevel := g.pointsInLevel + 1 }.emit (.tileMelted c)

def pushBlock (g : Game) (i : Nat) (d : Direction) : Game :=
  match g.blocks[i]? with
  | none => g
  | some b =>
    let motion := Motion.start b.pos (b.pos.step d) d g.rules.blockMoveTicks
    let g := g.modifyTile b.pos fun t => if t.block = some i then { t with block := none } else t
    let g := g.setBlock i { b with momentum := none, motion := some motion }
    (g.note (.blockPushed i d b.pos)).emit (.blockPushed i b.pos d)

/-- Blocks that rest on the given cells keep their place on the board. -/
def keepBlocks (g : Game) (cells : List Coord) : Game :=
  { g with
    board := g.blocks.zipIdx.foldl
      (fun board p =>
        if !p.1.isMoving && cells.contains p.1.pos then
          board.modify p.1.pos fun t => { t with block := some p.2 }
        else board)
      g.board }

/-- Reveal the secret; the second time nothing is left to change. -/
def pressButton (g : Game) : Game :=
  match g.board.secrets with
  | [] => g
  | changes =>
    let g := { g with board := g.board.revealSecret }.keepBlocks (changes.map Prod.fst)
    let g := changes.foldl (fun g p => g.emit (.tileChanged p.1 p.2)) g
    (g.note (.secretRevealed changes.length)).emit (.secretRevealed changes.length)

/-- Start a legal move. -/
def startMove (g : Game) (d : Direction) : Game :=
  let source := g.puffle.pos
  let target := source.step d
  let g := g.leave source
  let g := match g.blockAt target with
    | some i => g.pushBlock i d
    | none => g
  let g := if g.board.kind? target = some .button then g.pressButton else g
  { g with
    puffle := { g.puffle with
      motion := some (.start source target d g.rules.puffleMoveTicks) }
    stuckCheck := false }

/-- The game after the puffle has started a move, if the move is legal. -/
def attemptMove (g : Game) (d : Direction) : Option Game :=
  if g.phase = .playing ∧ !g.puffle.isMoving ∧ g.canMove d then some (g.startMove d) else none

end IceMaze.Game
