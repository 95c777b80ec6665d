import IceMaze.Level.Error
import IceMaze.Text.Blank
import IceMaze.Text.Numeric
import IceMaze.Text.Split

/-!
Lists of cells in level texts: `(x,y)` groups with commas between them.
-/

namespace IceMaze.LevelText

open Text

def readCoordinate? (s : List Char) : Option Int :=
  (readInt? (trim s)).filter fun n => Coord.InRange n

/-- A group at the start of the text, and what follows it. -/
def readCell? : List Char → Option (Coord × List Char)
  | '(' :: s => do
    let (inner, rest) ← cut? ')' s
    let (x, y) ← cut? ',' inner
    let x ← readCoordinate? x
    let y ← readCoordinate? y
    return (⟨x, y⟩, rest)
  | _ => none

theorem length_readCell?_lt {s rest : List Char} {c : Coord} (h : readCell? s = some (c, rest)) :
    rest.length < s.length := by
  unfold readCell? at h
  split at h
  · rename_i s
    cases hc : cut? ')' s with
    | none => simp [hc] at h
    | some p =>
      have := length_cut?_lt hc
      simp only [hc, Option.bind_eq_bind, Option.bind_some, Option.bind_eq_some_iff] at h
      obtain ⟨_, _, _, _, _, _, h⟩ := h
      cases h
      simp only [List.length_cons]
      omega
  · cases h

/-- At least one group. -/
def readCells? (s : List Char) : Option (List Coord) :=
  match _h : readCell? s with
  | none => none
  | some (c, rest) =>
    match _ht : trimStart rest with
    | [] => some [c]
    | ',' :: more => (readCells? (trimStart more)).map (c :: ·)
    | _ => none
termination_by s.length
decreasing_by
  have h₁ := length_readCell?_lt _h
  have h₂ := length_trimStart_le rest
  have h₃ := length_trimStart_le more
  rw [_ht, List.length_cons] at h₂
  omega

/-- The cells of the section `name`. -/
def readCells (name args : List Char) : Except LevelError (List Coord) :=
  match readCells? (trim args) with
  | some cells => .ok cells
  | none => .error (.malformed (String.ofList name) (String.ofList (trim args)))

def writeCell (c : Coord) : List Char :=
  '(' :: integer c.x ++ ',' :: integer c.y ++ [')']

def writeCells (cells : List Coord) : List Char := joinWith ',' (cells.map writeCell)

end IceMaze.LevelText
