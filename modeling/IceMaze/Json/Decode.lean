import IceMaze.Json.Value

/-!
Reading typed data from JSON values.

A record is an object, or an array of its fields in order, of which those at the end may be left
out.
-/

namespace IceMaze.Json

def toItems? : Json → Option (List Json)
  | .arr items => some items
  | _ => none

/-- An integer from `least` on and below `bound`. -/
def toInt? (least bound : Int) : Json → Option Int
  | .num n => n.toInt?.filter fun i => least ≤ i ∧ i < bound
  | _ => none

def toFloat? : Json → Option Float
  | .num n => n.toFloat?
  | _ => none

def toBool? : Json → Option Bool
  | .bool b => some b
  | _ => none

/-- A name, written as a string or as the only key of an object, with null for its value. -/
def toName? : Json → Option String
  | .str s => s
  | .obj [(k, .null)] => k
  | _ => none

def toList? {α : Type} (f : Json → Option α) (v : Json) : Option (List α) := do
  let items ← v.toItems?
  items.mapM f

/-- How a record treats keys that it does not know. -/
inductive Unknown where
  | refused | ignored
  deriving DecidableEq

/-- The value of the key, if it is there; refused if it is there twice. -/
def field? (members : Members) (key : String) : Option (Option Json) :=
  match members.filter (·.1 == some key) with
  | [] => some none
  | [m] => some (some m.2)
  | _ => none

/-- The values of a record's fields, in the order of `names`. -/
def fields? (names : List String) (unknown : Unknown) : Json → Option (List (Option Json))
  | .arr items =>
    if items.length ≤ names.length then
      some (items.map some ++ List.replicate (names.length - items.length) none)
    else none
  | .obj members =>
    if members.all fun m => match m.1 with
      | none => false
      | some k => unknown = .ignored || names.contains k
    then names.mapM (field? members)
    else none
  | _ => none

/-- A field that may be missing or null. -/
def optional? {α : Type} (f : Json → Option α) : Option Json → Option (Option α)
  | none | some .null => some none
  | some v => (f v).map some

/-- A field that has a default. -/
def withDefault? {α : Type} (default : α) (f : Json → Option α) : Option Json → Option α
  | none => some default
  | some v => f v

end IceMaze.Json
