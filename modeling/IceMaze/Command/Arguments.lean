import IceMaze.Command.Help
import IceMaze.Rules.Basic
import IceMaze.Text.Numeric
import IceMaze.Text.Split

/-!
The command line as a command.

An option's value follows it, or stands in the same word: `--level 2`, `--level=2`, `-l 2`, `-l2`
and `-l=2` say the same. After `--` no word is an option. A word that asks for help ends the line,
and what stands before it must be in order. `Command.ofArguments?` has no command for a line that is
misused in any way.
-/

namespace IceMaze

open Text

structure OptionName where
  long : String
  short : Option Char

/-- What one word of a command line is. -/
inductive Word where
  | operand
  | option (name value : String)
  /-- An option whose value is the next word. -/
  | awaiting (name : String)
  | help
  | unknown

structure Arguments where
  operands : List String
  options : List (String × String)
  /-- The line asks for help. -/
  help : Bool

namespace Arguments

def longWord (names : List OptionName) (s : List Char) : Word :=
  let (name, value) := match cut? '=' s with
    | some (name, value) => (name, some (String.ofList value))
    | none => (s, none)
  match names.find? (·.long == String.ofList name), value with
  | some n, some v => .option n.long v
  | some n, none => .awaiting n.long
  | none, _ => if s = "help".toList then .help else .unknown

def shortWord (names : List OptionName) (c : Char) (s : List Char) : Word :=
  match names.find? (·.short == some c), s with
  | some n, [] => .awaiting n.long
  | some n, '=' :: v => .option n.long (String.ofList v)
  | some n, v => .option n.long (String.ofList v)
  | none, _ => if c = 'h' then .help else .unknown

def classify (names : List OptionName) (word : String) : Word :=
  match word.toList with
  | '-' :: '-' :: s => longWord names s
  | '-' :: c :: s => shortWord names c s
  | _ => .operand

/-- Whether the word can be the value of an option before it. -/
def isValue (word : String) : Bool := !word.startsWith "-" || word == "-"

def addOption (name value : String) (a : Arguments) : Arguments :=
  { a with options := (name, value) :: a.options }

def addOperand (word : String) (a : Arguments) : Arguments :=
  { a with operands := word :: a.operands }

/-- Sort the words into operands and options. -/
def collect? (names : List OptionName) : List String → Option Arguments
  | [] => some ⟨[], [], false⟩
  | word :: rest =>
    if word = "--" then some ⟨rest, [], false⟩
    else match classify names word with
      | .operand => (collect? names rest).map (addOperand word)
      | .option name value => (collect? names rest).map (addOption name value)
      | .awaiting name =>
        match rest with
        | [] => none
        | value :: more =>
          if isValue value then (collect? names more).map (addOption name value) else none
      | .help => some ⟨[], [], true⟩
      | .unknown => none

/-- The value of an option, which may be missing; refused are options that are given twice, and
values that `f` refuses. -/
def option? {α : Type} (a : Arguments) (name : String) (f : String → Option α) :
    Option (Option α) :=
  match a.options.filter (·.1 == name) with
  | [] => some none
  | [o] => (f o.2).map some
  | _ => none

/-- The operand, which may be missing; refused are several, and one that `f` refuses. -/
def operand? {α : Type} (a : Arguments) (f : String → Option α) : Option (Option α) :=
  match a.operands with
  | [] => some none
  | [word] => (f word).map some
  | _ => none

end Arguments

inductive Format where
  | json | text
  deriving DecidableEq

structure PlayOptions where
  moves : String
  file : Option String
  level : Nat
  seed : UInt64
  rules : Option String
  momentum : Option Momentum

inductive Command where
  | check (file : Option String)
  | play (options : PlayOptions)
  | writeRules (out : String) (source : Option String) (momentum : Option Momentum)
  | convert (file : String) (format : Format)
  | help (topic : Topic)
  | version

namespace Command

/-- A path is never empty. -/
def path? (s : String) : Option String := if s = "" then none else some s

/-- A number of 64 bits, possibly with a plus in front. -/
def number? (s : String) : Option Nat :=
  let digits := match s.toList with
    | '+' :: ds => ds
    | ds => ds
  (readNat? digits).filter (· < UInt64.size)

def format? : String → Option Format
  | "json" => some .json
  | "text" => some .text
  | _ => none

def momentumOption : OptionName := ⟨"momentum", some 'm'⟩

def playOptions : List OptionName :=
  [⟨"file", some 'f'⟩, ⟨"level", some 'l'⟩, ⟨"seed", some 's'⟩, ⟨"rules", some 'r'⟩,
    momentumOption]

def check? (words : List String) : Option Command := do
  let a ← Arguments.collect? [] words
  let file ← a.operand? path?
  if a.help then return .help .check
  return .check file

def play? (words : List String) : Option Command := do
  let a ← Arguments.collect? playOptions words
  let moves ← a.operand? some
  let file ← a.option? "file" path?
  let level ← a.option? "level" number?
  let seed ← a.option? "seed" number?
  let rules ← a.option? "rules" path?
  let momentum ← a.option? "momentum" Momentum.ofWord?
  if a.help then return .help .play
  return .play ⟨← moves, file, level.getD 1, (seed.getD 0).toUInt64, rules, momentum⟩

def writeRules? (words : List String) : Option Command := do
  let a ← Arguments.collect? [⟨"from", none⟩, momentumOption] words
  let out ← a.operand? path?
  let source ← a.option? "from" path?
  let momentum ← a.option? "momentum" Momentum.ofWord?
  if a.help then return .help .writeRules
  return .writeRules (← out) source momentum

def convert? (words : List String) : Option Command := do
  let a ← Arguments.collect? [⟨"to", none⟩] words
  let file ← a.operand? path?
  let format ← a.option? "to" format?
  if a.help then return .help .convert
  return .convert (← file) (← format)

/-- Help on a command, or on the program. -/
def help? : List String → Option Command
  | [] => some (.help .program)
  | [name] => (Topic.ofName? name).map .help
  | _ => none

/-- What a word in the place of a command asks for. -/
def ofWord? (word : String) : Option Command :=
  match Arguments.classify [] word, word.toList with
  | .help, _ => some (.help .program)
  | _, '-' :: 'V' :: _ => some .version
  | _, _ => if word = "--version" then some .version else none

def ofArguments? : List String → Option Command
  | "check" :: words => check? words
  | "play" :: words => play? words
  | "write-rules" :: words => writeRules? words
  | "convert" :: words => convert? words
  | "help" :: words => help? words
  | word :: _ => ofWord? word
  | [] => none

end Command
end IceMaze
