import IceMaze.Coord
import IceMaze.Files
import IceMaze.Number.Layout
import IceMaze.TileKind

/-!
The rules of play that may be changed, and which of them make sense.
-/

namespace IceMaze

/-- What a block does after it has landed. -/
inductive Momentum where
  /-- It slides on until something stops it. -/
  | slide
  /-- It stops, except that a teleporter gives it one more tile. -/
  | single
  deriving DecidableEq

namespace Momentum

def name : Momentum → String
  | .slide => "slide"
  | .single => "single"

/-- The rule of that exact name. -/
def ofName? (s : String) : Option Momentum := [slide, single].find? (·.name == s)

/-- The rule that a player names, in letters of any case. -/
def ofWord? (s : String) : Option Momentum :=
  match s.toLower with
  | "slide" => some .slide
  | "single" | "one" => some .single
  | _ => none

end Momentum

structure Rules where
  momentum : Momentum
  /-- Which of several held directions comes first. -/
  priority : Vector Direction 4
  /-- How likely a level is loaded with its patches. -/
  altPatchChance : Float
  puffleMoveTicks : Nat
  blockMoveTicks : Nat
  coinBagBonus : Nat
  /-- Block holes are as solid as walls. -/
  solidHoles : Bool
  deriving BEq

inductive RulesError where
  | unreadable (path : String) (reason : FileError)
  | json
  | badChance (chance : Float)
  | zeroPuffleTicks
  | zeroBlockTicks
  | badPriority

def RulesError.message : RulesError → String
  | .unreadable path reason => s!"could not read {path}: {reason.message}"
  | .json => "invalid rules JSON: not a rules record"
  | .badChance chance =>
    s!"alt_patch_chance must be within 0..=1, got {Layout.message.text chance}"
  | .zeroPuffleTicks => "puffle_move_ticks must be at least 1"
  | .zeroBlockTicks => "block_move_ticks must be at least 1"
  | .badPriority => "priority must list every direction exactly once"

namespace Rules

/-- What holds unless a file says otherwise. -/
def standard : Rules where
  momentum := .slide
  priority := #v[.up, .down, .left, .right]
  altPatchChance := 0.5
  puffleMoveTicks := 4
  blockMoveTicks := 3
  coinBagBonus := 100
  solidHoles := false

def validate (r : Rules) : Except RulesError Unit :=
  if ¬(0 ≤ r.altPatchChance ∧ r.altPatchChance ≤ 1) then .error (.badChance r.altPatchChance)
  else if r.puffleMoveTicks = 0 then .error .zeroPuffleTicks
  else if r.blockMoveTicks = 0 then .error .zeroBlockTicks
  else if ∃ d ∈ Direction.all, d ∉ r.priority.toList then .error .badPriority
  else .ok ()

/-- Nothing may enter a tile of this kind. -/
def forbids (r : Rules) (k : TileKind) : Bool :=
  k.isImpassable || (r.solidHoles && k = .blockHole)

end Rules
end IceMaze
