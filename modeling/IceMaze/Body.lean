import IceMaze.Coord

/-!
What moves on the board: the puffle and the blocks.

A move takes some ticks; the mover's own cell changes when the last of them has passed.
-/

namespace IceMaze

/-- A move of one tile on its way. -/
structure Motion where
  source : Coord
  target : Coord
  dir : Direction
  elapsed : Nat
  duration : Nat
  deriving DecidableEq

namespace Motion

/-- A move takes at least one tick. -/
def start (source target : Coord) (dir : Direction) (duration : Nat) : Motion :=
  ⟨source, target, dir, 0, max duration 1⟩

def isDone (m : Motion) : Bool := m.duration ≤ m.elapsed

/-- Let one tick pass; a move that has ended stays ended. -/
def step (m : Motion) : Motion := if m.isDone then m else { m with elapsed := m.elapsed + 1 }

end Motion

structure Puffle where
  pos : Coord
  motion : Option Motion
  keys : Nat
  deriving DecidableEq

namespace Puffle

def new (pos : Coord) : Puffle := ⟨pos, none, 0⟩

def isMoving (p : Puffle) : Bool := p.motion.isSome

end Puffle

structure Block where
  pos : Coord
  motion : Option Motion
  /-- Where the block will slide on, after it has landed. -/
  momentum : Option Direction
  deriving DecidableEq

namespace Block

def new (pos : Coord) : Block := ⟨pos, none, none⟩

def isMoving (b : Block) : Bool := b.motion.isSome

/-- The cell that the block rests on or moves to. -/
def target (b : Block) : Coord := (b.motion.map Motion.target).getD b.pos

end Block
end IceMaze
