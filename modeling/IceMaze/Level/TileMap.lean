import IceMaze.TileKind
import IceMaze.Level.Error

/-!
Rectangles of tile kinds.

A map is known by `get?`: `get?_build` and `get?_set` say what each operation does to the cells.
`ofRows` accepts the non-empty rectangles that fit the board, and `rows` gives the rows back.
-/

namespace IceMaze

/-- A rectangle of tile kinds, row after row. -/
structure TileMap where
  width : Nat
  height : Nat
  cells : Array TileKind
  size_cells : cells.size = width * height
  deriving DecidableEq

namespace TileMap

theorem index_lt {x y w h : Nat} (hx : x < w) (hy : y < h) : y * w + x < w * h :=
  calc y * w + x < y * w + w := by omega
    _ = (y + 1) * w := by rw [Nat.add_mul, Nat.one_mul]
    _ ≤ h * w := Nat.mul_le_mul_right w hy
    _ = w * h := Nat.mul_comm h w

/-- The map whose cell in column `x` of row `y` is `f x y`. -/
def build (width height : Nat) (f : Nat → Nat → TileKind) : TileMap where
  width := width
  height := height
  cells := Array.ofFn fun i : Fin (width * height) => f (i % width) (i / width)
  size_cells := Array.size_ofFn

def filled (width height : Nat) (kind : TileKind) : TileMap :=
  build width height fun _ _ => kind

/-- Width and height as a coordinate holds them, in 32 bits. -/
def size (m : TileMap) : Coord := ⟨Coord.wrap m.width, Coord.wrap m.height⟩

def get? (m : TileMap) (x y : Nat) : Option TileKind :=
  if x < m.width ∧ y < m.height then m.cells[y * m.width + x]? else none

/-- Outside the map nothing changes. -/
def set (m : TileMap) (x y : Nat) (kind : TileKind) : TileMap :=
  if h : x < m.width ∧ y < m.height then
    { m with
      cells := m.cells.set (y * m.width + x) kind (m.size_cells ▸ index_lt h.1 h.2)
      size_cells := by simp [m.size_cells] }
  else m

/-- The rows of the map; none if it has no columns. -/
def rows (m : TileMap) : List (List TileKind) :=
  if m.width = 0 then []
  else (List.range m.height).map fun y => (List.range m.width).filterMap fun x => m.get? x y

/-- Write a row into the cells from `start` on. -/
def layRow (cells : Array TileKind) (start : Nat) : List TileKind → Array TileKind
  | [] => cells
  | k :: row => layRow (cells.setIfInBounds start k) (start + 1) row

/-- Write rows into the cells of a map of the given width, from its row `y` on. -/
def layRows (cells : Array TileKind) (width y : Nat) : List (List TileKind) → Array TileKind
  | [] => cells
  | row :: rows => layRows (layRow cells (y * width) row) width (y + 1) rows

theorem size_layRow (cells : Array TileKind) (start : Nat) (row : List TileKind) :
    (layRow cells start row).size = cells.size := by
  induction row generalizing cells start with
  | nil => rfl
  | cons k row ih => rw [layRow, ih, Array.size_setIfInBounds]

theorem size_layRows (cells : Array TileKind) (width y : Nat) (rows : List (List TileKind)) :
    (layRows cells width y rows).size = cells.size := by
  induction rows generalizing cells y with
  | nil => rfl
  | cons row rows ih => rw [layRows, ih, size_layRow]

/-- At least as wide and as high as asked; new cells are empty, and nothing shrinks. -/
def grow (m : TileMap) (width height : Nat) : TileMap :=
  let width := max width m.width
  let height := max height m.height
  if width = m.width ∧ height = m.height then m
  else {
    width := width
    height := height
    cells := layRows (Array.replicate (width * height) .empty) width 0 m.rows
    size_cells := by rw [size_layRows, Array.size_replicate] }

/-- The cells of the patch, each with its place, row by row. -/
def placed (m : TileMap) : List (Nat × Nat) :=
  (List.range m.height).flatMap fun y => (List.range m.width).map fun x => (x, y)

/-- Write `patch` over the map with its first cell at `(x, y)`, growing the map where needed. -/
def overlay (m : TileMap) (x y : Nat) (patch : TileMap) : TileMap :=
  patch.placed.foldl
    (fun m p => m.set (x + p.1) (y + p.2) ((patch.get? p.1 p.2).getD .empty))
    (m.grow (x + patch.width) (y + patch.height))

/-- Whether a map of this size fits the board. -/
def Fits (width height : Nat) : Prop := width ≤ boardWidth ∧ height ≤ boardHeight

instance (width height : Nat) : Decidable (Fits width height) :=
  inferInstanceAs (Decidable (_ ∧ _))

theorem length_flatten_rows {rows : List (List TileKind)} {width : Nat}
    (h : ∀ r ∈ rows, r.length = width) : rows.flatten.toArray.size = width * rows.length := by
  induction rows with
  | nil => simp
  | cons r rows ih =>
    have hr := h r (by simp)
    have ih := ih fun r hr => h r (by simp [hr])
    simp only [List.size_toArray] at ih ⊢
    simp [hr, ih, Nat.mul_add, Nat.add_comm]

/-- The rectangle with the given rows. -/
def ofRows (rows : List (List TileKind)) : Except LevelError TileMap :=
  let width := (rows.head?.map List.length).getD 0
  if width = 0 then .error .emptyMap
  else
    match h : rows.findIdx? (·.length ≠ width) with
    | some row =>
      let found := (rows[row]?.map List.length).getD 0
      .error (.rowLength row (min found width) width found)
    | none =>
      if Fits width rows.length then
        .ok {
          width := width
          height := rows.length
          cells := rows.flatten.toArray
          size_cells := length_flatten_rows (by simpa [List.findIdx?_eq_none_iff] using h) }
      else .error (.tooLarge width rows.length)

/-! ## Cells -/

theorem get?_build {w h : Nat} {f : Nat → Nat → TileKind} {x y : Nat} :
    (build w h f).get? x y = if x < w ∧ y < h then some (f x y) else none := by
  by_cases hxy : x < w ∧ y < h
  · have hi := index_lt hxy.1 hxy.2
    have hw : 0 < w := by omega
    have hx : (y * w + x) % w = x := by rw [Nat.mul_add_mod', Nat.mod_eq_of_lt hxy.1]
    have hy : (y * w + x) / w = y := by
      rw [Nat.add_comm, Nat.add_mul_div_right _ _ hw, Nat.div_eq_of_lt hxy.1, Nat.zero_add]
    simp [get?, build, hxy, hi, hx, hy]
  · simp [get?, build, hxy]

theorem index_inj {x y a b w : Nat} (hx : x < w) (ha : a < w) :
    b * w + a = y * w + x ↔ a = x ∧ b = y := by
  constructor
  · intro h
    have hmod := congrArg (· % w) h
    have hdiv := congrArg (· / w) h
    simp only [Nat.mul_add_mod', Nat.mod_eq_of_lt hx, Nat.mod_eq_of_lt ha] at hmod
    simp only [Nat.add_comm (_ * w), Nat.add_mul_div_right _ _ (Nat.zero_lt_of_lt hx),
      Nat.div_eq_of_lt hx, Nat.div_eq_of_lt ha, Nat.zero_add] at hdiv
    exact ⟨hmod, hdiv⟩
  · rintro ⟨rfl, rfl⟩
    rfl

theorem get?_set {m : TileMap} {a b x y : Nat} {k : TileKind} :
    (m.set a b k).get? x y =
      if x = a ∧ y = b ∧ a < m.width ∧ b < m.height then some k else m.get? x y := by
  by_cases hab : a < m.width ∧ b < m.height
  · by_cases hxy : x < m.width ∧ y < m.height
    · have hi : b * m.width + a < m.cells.size := m.size_cells ▸ index_lt hab.1 hab.2
      simp only [set, get?, hab, hxy, and_self, and_true, dite_true, if_true, Array.getElem?_set,
        index_inj hxy.1 hab.1, eq_comm (a := a), eq_comm (a := b)]
    · simp only [set, get?, hab, hxy, and_self, dite_true, if_false]
      grind
  · simp [set, hab]

end TileMap
end IceMaze
