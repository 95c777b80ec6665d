import IceMaze.Command.Arguments
import IceMaze.Command.Picture
import IceMaze.Game.Tick
import IceMaze.Level.BuiltIn
import IceMaze.Level.Record
import IceMaze.Rules.File

/-!
Carrying out a command: what is printed, and with which code the program ends.

Files are reached only through `FileAccess`.
-/

namespace IceMaze

open Text

inductive CommandError where
  | reading (path : String)
  | parsing (path : String)
  | levels (cause : LevelError)
  | rules (cause : RulesError)
  | game (cause : GameError)
  | unknownMove (c : Char)

def CommandError.message : CommandError → String
  | .reading path => s!"reading {path}"
  | .parsing path => s!"parsing {path}"
  | .levels cause => cause.message
  | .rules cause => cause.message
  | .game cause => cause.message
  | .unknownMove c => s!"unknown move `{c}` (expected U, D, L, R or X)"

/-- How the program ends. -/
structure Outcome where
  code : Nat
  stdout : String
  stderr : String
  deriving DecidableEq

namespace Outcome

def success (stdout : String) : Outcome := ⟨0, stdout, ""⟩

def failure (e : CommandError) : Outcome := ⟨1, "", s!"Error: {e.message}\n"⟩

def misuse : Outcome :=
  ⟨2, "", "usage: check [FILE] | play MOVES [-f FILE] [-l N] [-s N] [-r FILE] [-m M] | " ++
    "convert FILE --to json|text | write-rules OUT [--from FILE] [-m M]\n"⟩

def ofResult : Except CommandError String → Outcome
  | .ok stdout => success stdout
  | .error e => failure e

end Outcome

namespace Command

/-- What follows the last dot of the file's name, unless the name starts with that dot. -/
def extension? (path : String) : Option (List Char) :=
  let parts := (splitAt '/' path.toList).filter (· ≠ [])
  match (splitAt '.' (parts.getLast?.getD [])).reverse with
  | last :: before :: more => if more = [] ∧ before = [] then none else some last
  | _ => none

def isJson (path : String) : Bool :=
  (extension? path).any fun e => e.map Char.toLower = ['j', 's', 'o', 'n']

variable {m : Type → Type} [Monad m]

def readLevels (files : FileAccess m) (path : String) : m (Except CommandError (List Level)) := do
  match ← files.read path with
  | .error _ => return .error (.reading path)
  | .ok s =>
    let levels := if isJson path then Level.listOfJsonText s else Level.listOfText s
    return levels.mapError fun _ => .parsing path

/-- The levels of a file, or those that come with the game. -/
def loadLevels (files : FileAccess m) : Option String → m (Except CommandError (List Level))
  | some path => readLevels files path
  | none => return BuiltIn.levels.mapError .levels

/-! ## Checking -/

/-- A number in a column of two. -/
def twoWide (n : Nat) : String :=
  let ds := digits n
  String.ofList (List.replicate (2 - ds.length) ' ' ++ ds)

def patchSummary (l : Level) : String :=
  if l.patches = [] then ""
  else
    let count := l.patches.length
    let total := (l.variant true).totalTileCount
    s!", {count} alt patches ({total} tiles)"

def levelSummary (number : Nat) (l : Level) : String :=
  s!"level {twoWide number}: {l.tiles.width}x{l.tiles.height} " ++
  s!"at ({l.origin.x}, {l.origin.y}), spawn ({l.spawn.x}, {l.spawn.y}), " ++
  s!"{l.totalTileCount} tiles{patchSummary l}\n"

/-- Summarise the levels from number `n` on. -/
def levelSummaries : Nat → List Level → String
  | _, [] => ""
  | n, l :: ls => levelSummary n l ++ levelSummaries (n + 1) ls

def checkReport (levels : List Level) : String :=
  levelSummaries 1 levels ++ s!"{levels.length} levels OK\n"

/-! ## Playing -/

/-- Blocks may slide for so many ticks after a move. -/
def settleLimit : Nat := 10000

def input? (c : Char) : Option Input :=
  if c = 'x' ∨ c = 'X' then some .restart else (Direction.ofChar? c).map .hold

/-- Play moves until the last level is completed. Moves that are left then are not looked at. -/
def playMoves : List Char → Game → Except CommandError Game
  | [], g => .ok g
  | c :: cs, g =>
    if g.phase ≠ .playing then .ok g
    else match input? c with
      | none => .error (.unknownMove c)
      | some input => playMoves cs ((Run.start g).move settleLimit input).game.clearNotes

def playLevels (o : PlayOptions) (rules : Rules) (levels : List Level) :
    Except CommandError String := do
  let rules := match o.momentum with
    | some momentum => { rules with momentum := momentum }
    | none => rules
  let game ← (Game.new levels rules o.seed).mapError .game
  let game ← (game.startLevel o.level).mapError .game
  let game ← playMoves (o.moves.toList.filter fun c => !isBlank c) game
  return game.picture ++ game.summary ++ "\n"

def runPlay (files : FileAccess m) (o : PlayOptions) : m (Except CommandError String) := do
  match ← loadLevels files o.file with
  | .error e => return .error e
  | .ok levels =>
    match o.rules with
    | none => return playLevels o .standard levels
    | some path =>
      match ← Rules.read files path with
      | .error e => return .error (.rules e)
      | .ok rules => return playLevels o rules levels

/-! ## Writing -/

/-- The rules of a file, or the standard ones if there is no file or it cannot be used. -/
def baseRules (files : FileAccess m) : Option String → m Rules
  | some path => do return (← Rules.load files path).1
  | none => return .standard

def runWriteRules (files : FileAccess m) (out : String) (source : Option String)
    (momentum : Option Momentum) : m (Except CommandError String) := do
  let base ← baseRules files source
  let rules := { base with momentum := momentum.getD base.momentum }
  match ← rules.save files out with
  | .ok _ => return .ok s!"wrote {out} (momentum {rules.momentum.name})\n"
  | .error e => return .error (.rules e)

def encode (format : Format) (levels : List Level) : String :=
  match format with
  | .json => Level.listToJsonText levels
  | .text => Level.listToText levels

/-- What the command prints. -/
def execute (files : FileAccess m) : Command → m (Except CommandError String)
  | .check file => do return (← loadLevels files file).map checkReport
  | .play options => runPlay files options
  | .writeRules out source momentum => runWriteRules files out source momentum
  | .convert file format => do
    return (← readLevels files file).map fun levels => encode format levels ++ "\n"
  | .help topic => return .ok topic.page.text
  | .version => return .ok versionText

/-- Carry out a command line. -/
def run (files : FileAccess m) (words : List String) : m Outcome :=
  match ofArguments? words with
  | none => return .misuse
  | some command => do return .ofResult (← command.execute files)

end Command
end IceMaze
