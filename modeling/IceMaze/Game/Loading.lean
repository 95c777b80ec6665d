import IceMaze.Game.State

/-!
Starting, resetting and completing levels.
-/

namespace IceMaze.Game

/-- Put the blocks of a level on its drawn board, and its coin bag if it is earned. -/
def furnish (drawn : Board) (l : Level) (earned : Bool) : Board :=
  let blocked := l.blocks.zipIdx.foldl
    (fun b p => b.modify p.1 fun t => { t with block := some p.2 }) drawn
  match if earned then l.bag else none with
  | some c => blocked.modify c fun t => { t with bag := true }
  | none => blocked

/-- The board at the start of a level with its blocks, and with its coin bag if it is earned. -/
def openingBoard (l : Level) (earned : Bool) : Board := furnish (Board.draw l) l earned

/-- Put everything where the layout has it. -/
def redraw (g : Game) : Game :=
  match g.layout with
  | none => g
  | some l =>
    let (drawn, unpaired) := g.board.drawOver l
    let g := if unpaired > 0 then g.note (.unpairedTeleporter g.levelNumber) else g
    { g with
      pointsInLevel := 0
      melted := 0
      stuckCheck := false
      board := furnish drawn l g.solvedPrevious
      blocks := l.blocks.map .new
      puffle := .new l.spawn }

/-- The level of a number, counted from 1. -/
def level? (g : Game) (number : Nat) : Option Level :=
  if number = 0 then none else g.levels[number - 1]?

/-- Whether a level is loaded with its patches. Only a level with patches takes a random number. -/
def flipCoin (g : Game) (l : Level) : Bool × Random :=
  if l.patches = [] then (false, g.random)
  else
    let (x, random) := g.random.nextFloat
    (x < g.rules.altPatchChance, random)

/-- Load a level of the registry afresh. -/
def load (g : Game) (number : Nat) (l : Level) : Game :=
  let (alt, random) := g.flipCoin l
  let layout := l.variant alt
  let loaded := redraw { g with
    random := random
    phase := .playing
    levelNumber := number
    layout := some layout
    altApplied := alt
    total := layout.totalTileCount
    timesFailed := 0 }
  (loaded.note (.levelStarted number layout.totalTileCount alt)).emit (.levelStarted number alt)

def startLevel (g : Game) (number : Nat) : Except GameError Game :=
  match g.level? number with
  | some l => .ok (g.load number l)
  | none => .error (.noSuchLevel number g.levels.length)

/-- Play the same layout from the start; its points and melts are lost. -/
def resetLevel (g : Game) : Game :=
  if g.phase ≠ .playing ∨ g.layout.isNone then g
  else
    let g := redraw { g with timesFailed := g.timesFailed + 1 }
    (g.note (.levelReset g.levelNumber g.timesFailed)).emit
      (.levelReset g.levelNumber g.timesFailed)

def finish (g : Game) : Game :=
  let g := { g with phase := .finished, blocks := [] }
  (g.note (.allLevelsComplete g.score)).emit (.allLevelsComplete g.score)

/-- A cleared level earns its tile total, twice that on the first try. -/
def bonus (g : Game) : Nat :=
  if g.melted = g.total then (if g.timesFailed = 0 then 2 else 1) * g.total else 0

/-- Add up the points of the level. -/
def complete (g : Game) : Game :=
  let solved : Bool := g.melted = g.total
  let points := g.pointsInLevel + g.bonus
  let scored := { g with
    solvedPrevious := solved
    pointsAtStart := g.pointsAtStart + points
    pointsInLevel := 0 }
  (scored.note (.levelCompleted g.levelNumber points solved)).emit
    (.levelCompleted g.levelNumber solved points)

/-- Complete the level and load the next, if there is one. -/
def goToNextLevel (g : Game) : Game :=
  let g := g.complete
  match g.startLevel (g.levelNumber + 1) with
  | .ok g => g
  | .error _ => g.finish

end IceMaze.Game
