/-!
The random numbers of the game: a permuted congruential generator with 64 bits of state and 32
bits of output.
-/

namespace IceMaze

structure Random where
  state : UInt64
  increment : UInt64
  deriving DecidableEq

namespace Random

def multiplier : UInt64 := 6364136223846793005

def rotateRight (w : UInt32) (n : UInt32) : UInt32 := (w >>> n) ||| (w <<< (32 - n))

/-- The word that a state gives: its high bits, folded and then rotated by the highest five. -/
def output (s : UInt64) : UInt32 :=
  rotateRight (((s >>> 18) ^^^ s) >>> 27).toUInt32 (s >>> 59).toUInt32

/-- The sequence that spreads a seed over the generator's words. -/
def spread (t : UInt64) : UInt64 := t * multiplier + 11634580027462260723

def join (low high : UInt32) : UInt64 := low.toUInt64 ||| (high.toUInt64 <<< 32)

def advance (r : Random) : Random := { r with state := r.state * multiplier + r.increment }

/-- Start from a seed; the increment is made odd. -/
def ofSeed (seed : UInt64) : Random :=
  let t₀ := spread seed
  let t₁ := spread t₀
  let t₂ := spread t₁
  let t₃ := spread t₂
  let increment := join (output t₂) (output t₃) ||| 1
  advance ⟨join (output t₀) (output t₁) + increment, increment⟩

def nextWord (r : Random) : UInt32 × Random := (output r.state, r.advance)

/-- A number from 0 up to, but without, 1, on a grid of `2 ^ 53` steps. It takes two words. -/
def nextFloat (r : Random) : Float × Random :=
  let (low, r) := r.nextWord
  let (high, r) := r.nextWord
  ((join low high >>> 11).toFloat / 9007199254740992, r)

end Random
end IceMaze
