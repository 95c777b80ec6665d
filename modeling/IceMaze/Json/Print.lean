import IceMaze.Json.Value

/-!
Writing JSON: compact, or over several lines with two spaces of indentation a level.
-/

namespace IceMaze.Json

open Text

def hexDigit (n : Nat) : Char := if n < 10 then digit n else Char.ofNat ('a'.toNat + (n - 10))

/-- A character of a string; quotes, backslashes and control characters are escaped. -/
def writeChar (c : Char) : List Char :=
  if c = '"' ∨ c = '\\' then ['\\', c]
  else if c = '\x08' then ['\\', 'b']
  else if c = '\x0c' then ['\\', 'f']
  else if c = '\n' then ['\\', 'n']
  else if c = '\r' then ['\\', 'r']
  else if c = '\t' then ['\\', 't']
  else if c.toNat < 0x20 then
    ['\\', 'u', '0', '0', hexDigit (c.toNat / 16), hexDigit (c.toNat % 16)]
  else [c]

def writeString (s : String) : List Char := '"' :: s.toList.flatMap writeChar ++ ['"']

def writeText (s : Option String) : List Char := writeString (s.getD "")

mutual

def compact : Json → List Char
  | .null => "null".toList
  | .bool b => (if b then "true" else "false").toList
  | .num n => n.write
  | .str s => writeText s
  | .arr items => '[' :: compactItems items ++ [']']
  | .obj members => '\x7b' :: compactMembers members ++ ['\x7d']

def compactItems : List Json → List Char
  | [] => []
  | [v] => compact v
  | v :: w :: vs => compact v ++ ',' :: compactItems (w :: vs)

def compactMembers : Members → List Char
  | [] => []
  | [(k, v)] => writeText k ++ ':' :: compact v
  | (k, v) :: m :: ms => writeText k ++ ':' :: compact v ++ ',' :: compactMembers (m :: ms)

end

def newline (indent : Nat) : List Char := '\n' :: List.replicate (2 * indent) ' '

mutual

def pretty (indent : Nat) : Json → List Char
  | .null => "null".toList
  | .bool b => (if b then "true" else "false").toList
  | .num n => n.write
  | .str s => writeText s
  | .arr [] => ['[', ']']
  | .arr (v :: vs) => '[' :: prettyItems (indent + 1) (v :: vs) ++ newline indent ++ [']']
  | .obj [] => ['\x7b', '\x7d']
  | .obj (m :: ms) => '\x7b' :: prettyMembers (indent + 1) (m :: ms) ++ newline indent ++ ['\x7d']

def prettyItems (indent : Nat) : List Json → List Char
  | [] => []
  | [v] => newline indent ++ pretty indent v
  | v :: w :: vs => newline indent ++ pretty indent v ++ ',' :: prettyItems indent (w :: vs)

def prettyMembers (indent : Nat) : Members → List Char
  | [] => []
  | [(k, v)] => newline indent ++ writeText k ++ ": ".toList ++ pretty indent v
  | (k, v) :: m :: ms =>
    newline indent ++ writeText k ++ ": ".toList ++ pretty indent v ++
      ',' :: prettyMembers indent (m :: ms)

end

end IceMaze.Json
