import IceMaze.Json.Token

/-!
JSON values, and reading them from tokens.

The reader goes through the tokens once and keeps the arrays and objects that are still open,
innermost first.
-/

namespace IceMaze

/-- Members of objects keep their order and may repeat a key. -/
inductive Json where
  | null
  | bool (b : Bool)
  | num (n : Numeral)
  | str (text : Option String)
  | arr (items : List Json)
  | obj (members : List (Option String × Json))

namespace Json

def text (s : String) : Json := .str (some s)

def int (n : Int) : Json := .num (.ofInt n)

abbrev Members := List (Option String × Json)

/-- An array or object that is still open, with its contents so far, last first. -/
inductive Frame where
  | arr (items : List Json)
  | obj (members : Members) (key : Option String)

inductive ReadState where
  /-- A value must follow. -/
  | value (frames : List Frame)
  /-- An array has just been opened. -/
  | firstItem (frames : List Frame)
  /-- An object has just been opened. -/
  | firstKey (frames : List Frame)
  | key (frames : List Frame) (members : Members)
  | colon (frames : List Frame) (members : Members) (key : Option String)
  /-- A value has just ended. -/
  | done (frames : List Frame) (v : Json)

namespace ReadState

def beginValue (frames : List Frame) : Token → Option ReadState
  | .null => some (.done frames .null)
  | .bool b => some (.done frames (.bool b))
  | .num n => some (.done frames (.num n))
  | .str s => some (.done frames (.str s))
  | .bracketOpen => some (.firstItem frames)
  | .braceOpen => some (.firstKey frames)
  | _ => none

def step : ReadState → Token → Option ReadState
  | .value fs, t => beginValue fs t
  | .firstItem fs, .bracketClose => some (.done fs (.arr []))
  | .firstItem fs, t => beginValue (.arr [] :: fs) t
  | .firstKey fs, .braceClose => some (.done fs (.obj []))
  | .firstKey fs, .str k => some (.colon fs [] k)
  | .key fs ms, .str k => some (.colon fs ms k)
  | .colon fs ms k, .colon => some (.value (.obj ms k :: fs))
  | .done (.arr vs :: fs) v, .comma => some (.value (.arr (v :: vs) :: fs))
  | .done (.arr vs :: fs) v, .bracketClose => some (.done fs (.arr (v :: vs).reverse))
  | .done (.obj ms k :: fs) v, .comma => some (.key fs ((k, v) :: ms))
  | .done (.obj ms k :: fs) v, .braceClose => some (.done fs (.obj ((k, v) :: ms).reverse))
  | _, _ => none

def result? : ReadState → Option Json
  | .done [] v => some v
  | _ => none

end ReadState

def ofTokens? (ts : List Token) : Option Json := do
  let s ← ts.foldlM ReadState.step (.value [])
  s.result?

/-- The value of a text that holds one value and nothing else. -/
def read? (s : List Char) : Option Json := do
  let ts ← tokens? s
  ofTokens? ts

/-! ## Normal values -/

/-- Of members with one key the last stays. -/
def dropEarlier : Members → Members
  | [] => []
  | (k, v) :: ms => if ms.any (·.1 == k) then dropEarlier ms else (k, v) :: dropEarlier ms

mutual

/-- The value with its repeated keys resolved. Refused are more than `depth` containers inside one
another, numbers that are too large and strings without a text. -/
def normalize? (depth : Nat) : Json → Option Json
  | .null => some .null
  | .bool b => some (.bool b)
  | .num n => if n.toInt?.isSome || n.toFloat?.isSome then some (.num n) else none
  | .str none => none
  | .str (some s) => some (.str (some s))
  | .arr items =>
    if depth = 0 then none else (normalizeItems? (depth - 1) items).map .arr
  | .obj members =>
    if depth = 0 then none
    else (normalizeMembers? (depth - 1) members).map fun ms => .obj (dropEarlier ms)

def normalizeItems? (depth : Nat) : List Json → Option (List Json)
  | [] => some []
  | v :: vs => do
    let v ← normalize? depth v
    let vs ← normalizeItems? depth vs
    return v :: vs

def normalizeMembers? (depth : Nat) : Members → Option Members
  | [] => some []
  | (k, v) :: ms =>
    if k.isNone then none
    else do
      let v ← normalize? depth v
      let ms ← normalizeMembers? depth ms
      return (k, v) :: ms

end

end Json
end IceMaze
