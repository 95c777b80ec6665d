import IceMaze.Coord
import IceMaze.Log
import IceMaze.TileKind

/-!
What happens in a game, as told to its host and as written to the log.

Levels are numbered from 1, blocks from 0.
-/

namespace IceMaze

inductive Event where
  | levelStarted (number : Nat) (alt : Bool)
  | levelReset (number : Nat) (timesFailed : UInt32)
  | tileChanged (cell : Coord) (kind : TileKind)
  | tileMelted (cell : Coord)
  | keyCollected (cell : Coord)
  | keyUsed (cell : Coord)
  | bagCollected (cell : Coord)
  | teleported (source target : Coord)
  | blockPushed (block : Nat) (source : Coord) (dir : Direction)
  | blockTeleported (block : Nat) (source target : Coord)
  | secretRevealed (changed : Nat)
  | levelCompleted (number : Nat) (solved : Bool) (points : Nat)
  /-- No move was left, and the level was reset. -/
  | stuck (cell : Coord)
  | allLevelsComplete (score : Nat)
  deriving DecidableEq

inductive Note where
  | levelStarted (number total : Nat) (alt : Bool)
  | unpairedTeleporter (number : Nat)
  | levelReset (number : Nat) (timesFailed : UInt32)
  | levelCompleted (number points : Nat) (solved : Bool)
  | allLevelsComplete (score : Nat)
  | blockPushed (block : Nat) (dir : Direction) (source : Coord)
  | blockTeleported (block : Nat) (source target : Coord)
  | teleported (source target : Coord)
  | secretRevealed (changed : Nat)
  | stuck (cell : Coord) (number : Nat)
  deriving DecidableEq

namespace Note

def cellText (c : Coord) : String := s!"[{c.x}, {c.y}]"

def line : Note → LogLine
  | .levelStarted number total alt =>
    let layout := if alt then ", alt layout" else ""
    ⟨.info, s!"Level {number} started ({total} meltable tiles{layout})"⟩
  | .unpairedTeleporter number => ⟨.warn, s!"Level {number} has an unpaired teleporter"⟩
  | .levelReset number timesFailed =>
    ⟨.debug, s!"Level {number} reset (failed {timesFailed} times)"⟩
  | .levelCompleted number points solved =>
    let mark := if solved then " (solved)" else ""
    ⟨.info, s!"Level {number} complete: {points} points{mark}"⟩
  | .allLevelsComplete score => ⟨.info, s!"All levels complete, final score {score}"⟩
  | .blockPushed block dir source =>
    ⟨.debug, s!"Block {block} pushed {dir.name} from {cellText source}"⟩
  | .blockTeleported block source target =>
    ⟨.debug, s!"Block {block} teleported {cellText source} -> {cellText target}"⟩
  | .teleported source target =>
    ⟨.debug, s!"Teleported {cellText source} -> {cellText target}"⟩
  | .secretRevealed changed => ⟨.debug, s!"Secret revealed: {changed} tiles changed"⟩
  | .stuck cell number =>
    ⟨.warn, s!"Puffle stuck at {cellText cell} on level {number}, resetting"⟩

end Note
end IceMaze
