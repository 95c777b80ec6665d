import IceMaze.Game.Loading
import IceMaze.Game.Move

/-!
One tick of the game.

Every move on its way advances by one step: first the blocks, by number, then the puffle. A move
that ends has its effects at once.
-/

namespace IceMaze

/-- What is held during a tick. -/
structure Input where
  held : Direction → Bool
  reset : Bool

namespace Input

def idle : Input := ⟨fun _ => false, false⟩

def hold (d : Direction) : Input := ⟨(· = d), false⟩

def restart : Input := ⟨fun _ => false, true⟩

end Input

namespace Game

/-- Start the first legal move among the held directions. -/
def steer (g : Game) (input : Input) : Game :=
  if g.puffle.isMoving then g
  else
    (g.rules.priority.toList.findSome? fun d =>
      if input.held d then g.attemptMove d else none).getD g

/-! ## Blocks -/

/-- A block that has landed with momentum slides on, if it can. -/
def restartBlock (g : Game) (i : Nat) : Game :=
  match g.blocks[i]? with
  | none => g
  | some b =>
    if b.isMoving then g
    else match b.momentum with
      | none => g
      | some d =>
        let g := g.setBlock i { b with momentum := none }
        if g.canPush b.pos d then g.pushBlock i d else g

/-- The other end of a teleporter that a block has reached, if nothing is in the way there. -/
def blockExit? (g : Game) (c : Coord) : Option Coord := do
  let tile ← g.board.get? c
  if tile.kind = .teleporter then
    let partner ← tile.link
    if (g.blockAt partner).isNone && !g.puffleHolds partner then some partner else none
  else none

/-- A block comes to rest on a cell, possibly to slide on. -/
def restBlock (g : Game) (i : Nat) (b : Block) (c : Coord) (momentum : Option Direction) : Game :=
  (g.setBlock i { b with pos := c, momentum := momentum }).modifyTile c fun t =>
    { t with block := some i }

/-- The move of a block ends. -/
def landBlock (g : Game) (i : Nat) (b : Block) (m : Motion) : Game :=
  let b := { b with motion := none }
  let g := g.setBlock i b
  match g.blockExit? m.target with
  | some partner =>
    let g := (g.note (.blockTeleported i m.target partner)).emit
      (.blockTeleported i m.target partner)
    g.restBlock i b partner (some m.dir)
  | none =>
    let momentum := match g.rules.momentum with
      | .slide => some m.dir
      | .single => none
    g.restBlock i b m.target momentum

def stepBlock (g : Game) (i : Nat) : Game :=
  match g.blocks[i]? with
  | none => g
  | some b =>
    match b.motion with
    | none => g
    | some m =>
      let m := m.step
      if m.isDone then g.landBlock i b m else g.setBlock i { b with motion := some m }

def advanceBlock (g : Game) (i : Nat) : Game := (g.restartBlock i).stepBlock i

def advanceBlocks (g : Game) : Game := (List.range g.blocks.length).foldl advanceBlock g

/-! ## The puffle -/

def takeBag (g : Game) (c : Coord) : Game :=
  if ((g.board.get? c).map Tile.bag).getD false then
    let g := g.modifyTile c fun t => { t with bag := false }
    { g with pointsInLevel := g.pointsInLevel + g.rules.coinBagBonus }.emit (.bagCollected c)
  else g

def takeKey (g : Game) (c : Coord) : Game :=
  if ((g.board.get? c).map Tile.key).getD false then
    let g := g.modifyTile c fun t => { t with key := false }
    { g with puffle := { g.puffle with keys := g.puffle.keys + 1 } }.emit (.keyCollected c)
  else g

/-- A lock turns into ice and costs a key. -/
def openLock (g : Game) (c : Coord) : Game :=
  let g := g.changeTile c .ice
  { g with puffle := { g.puffle with keys := g.puffle.keys - 1 } }.emit (.keyUsed c)

/-- The other end of an unused teleporter. A block there keeps the puffle where it is. -/
def puffleExit? (g : Game) (tile : Tile) : Option Coord :=
  if tile.plaid then none else tile.link.filter fun partner => (g.blockAt partner).isNone

/-- Both ends are used up. -/
def teleport (g : Game) (source target : Coord) : Game :=
  let wear : Tile → Tile := fun t => { t with plaid := true }
  let g := (g.modifyTile source wear).modifyTile target wear
  let g := { g with puffle := { g.puffle with pos := target } }
  (g.note (.teleported source target)).emit (.teleported source target)

def awaitStuckCheck (g : Game) : Game := { g with stuckCheck := true }

/-- The puffle's move ends on a cell. Whoever has teleported is not checked for being stuck. -/
def enterTile (g : Game) (c : Coord) : Game :=
  let g := { g with puffle := { g.puffle with pos := c } }
  match g.board.get? c with
  | none => g
  | some tile =>
    let g := g.takeBag c
    match tile.kind with
    | .goal => g.goToNextLevel
    | .lock => ((g.openLock c).takeKey c).awaitStuckCheck
    | .teleporter =>
      match g.puffleExit? tile with
      | some partner => (g.teleport c partner).takeKey c
      | none => (g.takeKey c).awaitStuckCheck
    | _ => (g.takeKey c).awaitStuckCheck

def advancePuffle (g : Game) : Game :=
  match g.puffle.motion with
  | none => g
  | some m =>
    let m := m.step
    if m.isDone then { g with puffle := { g.puffle with motion := none } }.enterTile m.target
    else { g with puffle := { g.puffle with motion := some m } }

/-- Once everything rests, a puffle that has landed where no move is left has failed. -/
def checkStuck (g : Game) : Game :=
  if g.stuckCheck && g.phase = .playing && g.isSettled then
    let g := { g with stuckCheck := false }
    if g.isStuck then
      ((g.note (.stuck g.puffle.pos g.levelNumber)).emit (.stuck g.puffle.pos)).resetLevel
    else g
  else g

/-! ## Ticks -/

/-- Only a game in play takes ticks. -/
def tick (g : Game) (input : Input) : Game :=
  let g := { g with events := [] }
  if g.phase ≠ .playing then g
  else
    let g := { g with ticks := g.ticks + 1 }
    if input.reset then g.resetLevel
    else ((g.steer input).advanceBlocks).advancePuffle.checkStuck

end Game

/-- A game with the events of its ticks so far. -/
structure Run where
  game : Game
  events : List Event

namespace Run

def start (g : Game) : Run := ⟨g, []⟩

def tick (r : Run) (input : Input) : Run :=
  let g := r.game.tick input
  ⟨g, r.events ++ g.events⟩

def ticks (input : Input) : Nat → Run → Run
  | 0, r => r
  | n + 1, r => ticks input n (r.tick input)

/-- Nothing more happens without input. -/
def isAtRest (r : Run) : Bool := r.game.isSettled || r.game.phase ≠ .playing

/-- Idle until everything rests, for so many ticks at most. -/
def settle : Nat → Run → Run
  | 0, r => r
  | n + 1, r => if r.isAtRest then r else settle n (r.tick .idle)

/-- One tick with the input, and then idling until everything rests. -/
def move (limit : Nat) (r : Run) (input : Input) : Run := settle limit (r.tick input)

end Run
end IceMaze
