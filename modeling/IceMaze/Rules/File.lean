import IceMaze.Json.Decode
import IceMaze.Json.Print
import IceMaze.Log
import IceMaze.Rules.Basic

/-!
Rules as a JSON record. Fields that are missing have their standard values, and keys that are not
known are passed over.
-/

namespace IceMaze.Rules

open Json

def fieldNames : List String :=
  ["momentum", "priority", "alt_patch_chance", "puffle_move_ticks", "block_move_ticks",
    "coin_bag_bonus", "solid_holes"]

/-! ## Reading -/

def momentum? (v : Json) : Option Momentum := do Momentum.ofName? (← v.toName?)

def direction? (v : Json) : Option Direction := do Direction.ofName? (← v.toName?)

def priority? (v : Json) : Option (Vector Direction 4) := do
  match ← toList? direction? v with
  | [a, b, c, d] => some #v[a, b, c, d]
  | _ => none

/-- A count of 32 bits. -/
def count? (v : Json) : Option Nat := (v.toInt? 0 UInt32.size).map Int.toNat

def ofJson? (v : Json) : Option Rules := do
  match ← fields? fieldNames .ignored v with
  | [momentum, priority, chance, puffle, block, bonus, holes] =>
    return {
      momentum := ← withDefault? standard.momentum momentum? momentum
      priority := ← withDefault? standard.priority priority? priority
      altPatchChance := ← withDefault? standard.altPatchChance Json.toFloat? chance
      puffleMoveTicks := ← withDefault? standard.puffleMoveTicks count? puffle
      blockMoveTicks := ← withDefault? standard.blockMoveTicks count? block
      coinBagBonus := ← withDefault? standard.coinBagBonus count? bonus
      solidHoles := ← withDefault? standard.solidHoles Json.toBool? holes }
  | _ => none

/-- Read rules that need not make sense. -/
def decode (s : String) : Except RulesError Rules :=
  match Json.read? s.toList with
  | none => .error .json
  | some v =>
    match ofJson? v with
    | some r => .ok r
    | none => .error .json

/-- Read rules that make sense. -/
def ofText (s : String) : Except RulesError Rules := do
  let r ← decode s
  r.validate
  return r

/-! ## Writing -/

def floatJson (x : Float) : Json :=
  if x.isFinite then .num (Layout.file.ofFloat x) else .null

def toJson (r : Rules) : Json :=
  .obj [
    (some "momentum", .text r.momentum.name),
    (some "priority", .arr (r.priority.toList.map fun d => .text d.name)),
    (some "alt_patch_chance", floatJson r.altPatchChance),
    (some "puffle_move_ticks", .int r.puffleMoveTicks),
    (some "block_move_ticks", .int r.blockMoveTicks),
    (some "coin_bag_bonus", .int r.coinBagBonus),
    (some "solid_holes", .bool r.solidHoles)]

def toText (r : Rules) : String := String.ofList (r.toJson.pretty 0)

/-! ## Files -/

variable {m : Type → Type} [Monad m]

def read (files : FileAccess m) (path : String) : m (Except RulesError Rules) := do
  match ← files.read path with
  | .ok s => return ofText s
  | .error reason => return .error (.unreadable path reason)

/-- Read rules, or take the standard ones and say why. -/
def load (files : FileAccess m) (path : String) : m (Rules × LogLine) := do
  match ← read files path with
  | .ok r => return (r, ⟨.info, s!"Loaded rules from {path}"⟩)
  | .error e => return (standard, ⟨.warn, s!"{e.message}; using default rules"⟩)

def save (files : FileAccess m) (path : String) (r : Rules) : m (Except RulesError LogLine) := do
  match ← files.write path r.toText with
  | .ok () => return .ok ⟨.info, s!"Rules saved to {path}"⟩
  | .error reason => return .error (.unreadable path reason)

end IceMaze.Rules
