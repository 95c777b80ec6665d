/-!
Cells, directions and the board rectangle.

`boardCells` lists the cells of the board column by column, the order in which levels are swept;
`boardRows` lists them row by row, the order in which they are shown. `mem_boardCells` says that
the first list misses no cell.
-/

namespace IceMaze

abbrev boardWidth : Nat := 19

abbrev boardHeight : Nat := 15

/-- A cell; `y` grows downwards. -/
structure Coord where
  x : Int
  y : Int
  deriving DecidableEq, Inhabited

inductive Direction where
  | up | down | left | right
  deriving DecidableEq

namespace Direction

def all : List Direction := [.up, .down, .left, .right]

theorem mem_all (d : Direction) : d ∈ all := by cases d <;> decide

def name : Direction → String
  | .up => "Up"
  | .down => "Down"
  | .left => "Left"
  | .right => "Right"

def ofName? (s : String) : Option Direction :=
  all.find? (·.name == s)

theorem ofName?_name (d : Direction) : ofName? d.name = some d := by cases d <;> decide

/-- The letters U, D, L and R, in either case. -/
def ofChar? (c : Char) : Option Direction :=
  match c.toUpper with
  | 'U' => some .up
  | 'D' => some .down
  | 'L' => some .left
  | 'R' => some .right
  | _ => none

def delta : Direction → Coord
  | .up => ⟨0, -1⟩
  | .down => ⟨0, 1⟩
  | .left => ⟨-1, 0⟩
  | .right => ⟨1, 0⟩

end Direction

namespace Coord

def zero : Coord := ⟨0, 0⟩

/-- The neighbour in a direction. -/
def step (c : Coord) (d : Direction) : Coord :=
  ⟨c.x + d.delta.x, c.y + d.delta.y⟩

/-- `c` lies in the rectangle from `lo` up to, but without, `hi`. -/
def Within (lo hi c : Coord) : Prop :=
  lo.x ≤ c.x ∧ lo.y ≤ c.y ∧ c.x < hi.x ∧ c.y < hi.y

instance (lo hi c : Coord) : Decidable (Within lo hi c) :=
  inferInstanceAs (Decidable (_ ∧ _))

def boardEnd : Coord := ⟨boardWidth, boardHeight⟩

def OnBoard (c : Coord) : Prop := Within zero boardEnd c

instance (c : Coord) : Decidable c.OnBoard :=
  inferInstanceAs (Decidable (Within _ _ c))

/-- Numbers of 32 bits with a sign; level files hold no other coordinates. -/
def InRange (n : Int) : Prop := -2147483648 ≤ n ∧ n < 2147483648

instance (n : Int) : Decidable (InRange n) := inferInstanceAs (Decidable (_ ∧ _))

/-- What 32 bits with a sign keep of `n`. A number in range stays as it is. -/
def wrap (n : Int) : Int := Int.bmod n 4294967296

theorem onBoard_iff {c : Coord} :
    c.OnBoard ↔ 0 ≤ c.x ∧ 0 ≤ c.y ∧ c.x < 19 ∧ c.y < 15 := by
  simp [OnBoard, Within, zero, boardEnd]

end Coord

/-- Every cell of the board, column by column. -/
def boardCells : List Coord :=
  (List.range boardWidth).flatMap fun x =>
    (List.range boardHeight).map fun y => ⟨Int.ofNat x, Int.ofNat y⟩

theorem mem_boardCells {c : Coord} : c ∈ boardCells ↔ c.OnBoard := by
  obtain ⟨x, y⟩ := c
  simp only [boardCells, Coord.onBoard_iff, List.mem_flatMap, List.mem_map, List.mem_range,
    Coord.mk.injEq]
  constructor
  · rintro ⟨a, ha, b, hb, rfl, rfl⟩
    exact ⟨Int.natCast_nonneg a, Int.natCast_nonneg b, Int.ofNat_lt.2 ha, Int.ofNat_lt.2 hb⟩
  · rintro ⟨h₁, h₂, h₃, h₄⟩
    exact ⟨x.toNat, (Int.toNat_lt h₁).2 h₃, y.toNat, (Int.toNat_lt h₂).2 h₄,
      Int.toNat_of_nonneg h₁, Int.toNat_of_nonneg h₂⟩

/-- Every cell of the board, row by row. -/
def boardRows : List (List Coord) :=
  (List.range boardHeight).map fun y =>
    (List.range boardWidth).map fun x => ⟨Int.ofNat x, Int.ofNat y⟩

end IceMaze
