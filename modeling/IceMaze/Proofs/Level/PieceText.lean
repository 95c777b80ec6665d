import IceMaze.Level.Text.Document
import IceMaze.Proofs.Level.Bounds
import IceMaze.Proofs.Level.MapText

/-!
Written sections are read back as their pieces.

The scanner takes a section off the front of a text (`scan_mapSection`, `scan_alt`,
`scan_cellSection`), and a draft takes the piece that it leaves (`addPiece_map`, `addPiece_cells`).
-/

namespace IceMaze

def Coord.Writable (c : Coord) : Prop := InRange c.x ∧ InRange c.y

namespace LevelText

open Text

/-! ## Cells -/

theorem mem_integer {c : Char} {n : Int} (h : c ∈ integer n) : c = '-' ∨ isDigit c = true := by
  cases n with
  | ofNat n => exact .inr (List.all_eq_true.1 (all_isDigit_digits n) c h)
  | negSucc n =>
    rcases List.mem_cons.1 h with rfl | h
    · exact .inl rfl
    · exact .inr (List.all_eq_true.1 (all_isDigit_digits _) c h)

theorem solid_integer (n : Int) : Solid (integer n) := fun c hc => by
  rcases mem_integer hc with rfl | digit
  · decide
  · exact isBlank_of_isDigit digit

theorem not_mem_integer {c : Char} (dash : c ≠ '-') (digit : isDigit c = false) (n : Int) :
    c ∉ integer n := fun h => by
  rcases mem_integer h with same | is_digit
  · exact dash same
  · rw [digit] at is_digit
    cases is_digit

theorem readCoordinate?_integer {n : Int} (h : Coord.InRange n) :
    readCoordinate? (integer n) = some n := by
  simp [readCoordinate?, trim_of_solid (solid_integer n), readInt?_integer, h]

theorem solid_writeCell (c : Coord) : Solid (writeCell c) := by
  have text : writeCell c = ['('] ++ integer c.x ++ ([','] ++ integer c.y) ++ [')'] := by
    simp [writeCell]
  rw [text]
  exact (((Solid.singleton (by decide)).append (solid_integer _)).append
    ((Solid.singleton (by decide)).append (solid_integer _))).append (Solid.singleton (by decide))

theorem solid_writeCells (cs : List Coord) : Solid (writeCells cs) := by
  apply solid_joinWith (by decide)
  intro p hp
  obtain ⟨c, _, rfl⟩ := List.mem_map.1 hp
  exact solid_writeCell c

theorem readCell?_writeCell {c : Coord} (h : c.Writable) (rest : List Char) :
    readCell? (writeCell c ++ rest) = some (c, rest) := by
  have text : writeCell c ++ rest =
      '(' :: ((integer c.x ++ ',' :: integer c.y) ++ ')' :: rest) := by
    simp [writeCell]
  have outer : ')' ∉ integer c.x ++ ',' :: integer c.y := by
    simp [not_mem_integer (show ')' ≠ '-' by decide) (by decide)]
  have inner : ',' ∉ integer c.x := not_mem_integer (by decide) (by decide) _
  rw [text, readCell?, cut?_eq_some.2 ⟨rfl, outer⟩]
  simp [cut?_eq_some.2 ⟨rfl, inner⟩, readCoordinate?_integer h.1, readCoordinate?_integer h.2]

/-- One group, and then the end or a comma before more. -/
theorem readCells?_eq (s : List Char) :
    readCells? s = (readCell? s).bind fun p =>
      match trimStart p.2 with
      | [] => some [p.1]
      | ',' :: more => (readCells? (trimStart more)).map (p.1 :: ·)
      | _ => none := by
  rw [readCells?]
  split
  · rename_i none
    rw [none, Option.bind_none]
  · rename_i c rest first
    rw [first, Option.bind_some]
    split <;> rename_i after <;> simp only [after]

theorem readCells?_writeCells {cs : List Coord} (ne : cs ≠ []) (h : ∀ c ∈ cs, c.Writable) :
    readCells? (writeCells cs) = some cs := by
  induction cs with
  | nil => exact absurd rfl ne
  | cons c cs ih =>
    rw [List.forall_mem_cons] at h
    cases cs with
    | nil =>
      have text : writeCells [c] = writeCell c ++ [] := (List.append_nil _).symm
      rw [text, readCells?_eq, readCell?_writeCell h.1]
      rfl
    | cons d ds =>
      have text : writeCells (c :: d :: ds) = writeCell c ++ ',' :: writeCells (d :: ds) := rfl
      have comma : trimStart (',' :: writeCells (d :: ds)) = ',' :: writeCells (d :: ds) :=
        trimStart_of_head (by rintro e ⟨⟩; decide)
      rw [text, readCells?_eq, readCell?_writeCell h.1, Option.bind_some]
      simp only [comma, trimStart_of_solid (solid_writeCells (d :: ds)), ih (by simp) h.2]
      rfl

theorem readCells_eq_ok {name args : List Char} {cells : List Coord} :
    readCells name args = .ok cells ↔ readCells? (trim args) = some cells := by
  unfold readCells
  split <;> rename_i read <;> simp [read]

theorem readCells_writeCells (name : List Char) {cs : List Coord} (ne : cs ≠ [])
    (h : ∀ c ∈ cs, c.Writable) : readCells name (writeCells cs) = .ok cs := by
  rw [readCells, trim_of_solid (solid_writeCells cs), readCells?_writeCells ne h]

theorem head_writeCells (cs : List Coord) : ∀ c ∈ (writeCells cs).head?, isLetter c = false := by
  intro d hd
  cases cs with
  | nil => cases hd
  | cons c cs =>
    have first : (writeCells (c :: cs)).head? = some '(' := by
      cases cs <;> simp [writeCells, writeCell, joinWith]
    rw [first] at hd
    cases hd
    decide

theorem head_cells_newline (cells : List Coord) (s : List Char) :
    ∀ c ∈ (writeCells cells ++ '\n' :: s).head?, isLetter c = false := by
  cases written : writeCells cells with
  | nil =>
    rintro c ⟨⟩
    decide
  | cons d t =>
    have first := head_writeCells cells
    rw [written] at first
    exact first

/-! ## The scanner -/

open Piece

theorem scan_eq (s : List Char) :
    scan s = match trimStart s with
      | [] => []
      | c :: rest =>
        if c = '#' then scan (after '\n' rest)
        else if nameOf (c :: rest) = ['m', 'a', 'p'] then
          match cut? ';' (afterName (c :: rest)) with
          | some (body, tail) => .map body :: scan tail
          | none => [.unterminated]
        else if nameOf (c :: rest) = ['a', 'l', 't'] then .alt :: scan (afterName (c :: rest))
        else .directive (trim (before '\n' (c :: rest))) :: scan (after '\n' (c :: rest)) := by
  rw [scan]
  split
  · rename_i blank
    rw [blank]
  · rename_i c rest first
    rw [first]
    dsimp only
    split
    · rfl
    · split
      · split <;> rename_i cut <;> rw [cut]
      · split <;> rfl

theorem scan_nil : scan [] = [] := by
  rw [scan_eq]
  rfl

theorem scan_newline (s : List Char) : scan ('\n' :: s) = scan s := by
  rw [scan_eq, trimStart_blank (by decide), ← scan_eq]

/-- Text that starts with a name is not trimmed and is not a comment. -/
theorem scan_name {name s : List Char} (letters : name.all isLetter = true) (ne : name ≠ [])
    (stop : ∀ c ∈ s.head?, isLetter c = false) :
    scan (name ++ s) =
      if name = ['m', 'a', 'p'] then
        match cut? ';' s with
        | some (body, tail) => .map body :: scan tail
        | none => [.unterminated]
      else if name = ['a', 'l', 't'] then .alt :: scan s
      else .directive (trim (before '\n' (name ++ s))) :: scan (after '\n' (name ++ s)) := by
  rw [List.all_eq_true] at letters
  obtain ⟨named, rest⟩ := takeWhile_dropWhile_append letters stop
  obtain ⟨c, t, rfl⟩ := List.exists_cons_of_ne_nil ne
  have letter := letters c List.mem_cons_self
  have not_comment : c ≠ '#' := by
    rintro rfl
    exact absurd letter (by decide)
  have start : trimStart (c :: t ++ s) = c :: t ++ s :=
    trimStart_of_head (by rintro d ⟨⟩; exact isBlank_of_isLetter letter)
  rw [scan_eq, start, List.cons_append]
  simp only [not_comment, if_false, nameOf, afterName, ← List.cons_append, named, rest]

theorem scan_mapSection (m : TileMap) (s : List Char) :
    scan (mapSection m ++ s) = .map ('\n' :: writeMap m) :: scan s := by
  have text : mapSection m ++ s =
      ['m', 'a', 'p'] ++ (('\n' :: writeMap m) ++ ';' :: '\n' :: s) := by
    simp [mapSection]
  have body : ';' ∉ '\n' :: writeMap m := by
    simp [semicolon_not_mem_writeMap]
  rw [text, scan_name (by decide) (by decide) (by rintro c ⟨⟩; decide), if_pos rfl,
    cut?_eq_some.2 ⟨rfl, body⟩]
  dsimp only
  rw [scan_newline]

theorem scan_alt (s : List Char) : scan ("alt\n".toList ++ s) = .alt :: scan s := by
  have text : "alt\n".toList ++ s = ['a', 'l', 't'] ++ '\n' :: s := by simp
  rw [text, scan_name (by decide) (by decide) (by rintro c ⟨⟩; decide), if_neg (by decide),
    if_pos rfl, scan_newline]

/-- The line of a section with its cells. -/
def cellLine (part : Section) (cells : List Coord) : List Char :=
  part.name.toList ++ writeCells cells

theorem letters_name (part : Section) : part.name.toList.all isLetter = true := by
  cases part <;> decide

theorem name_of_cells {part : Section} (not_map : part ≠ .map) :
    part.name.toList ≠ [] ∧ part.name.toList ≠ ['m', 'a', 'p'] ∧
      part.name.toList ≠ ['a', 'l', 't'] := by
  cases part <;> first | exact absurd rfl not_map | decide

theorem solid_cellLine (part : Section) (cells : List Coord) : Solid (cellLine part cells) :=
  Solid.append (fun c hc => isBlank_of_isLetter (List.all_eq_true.1 (letters_name part) c hc))
    (solid_writeCells cells)

theorem scan_cellSection {part : Section} (not_map : part ≠ .map) (cells : List Coord)
    (s : List Char) :
    scan (cellSection part cells ++ s) = .directive (cellLine part cells) :: scan s := by
  have line := solid_cellLine part cells
  have name := name_of_cells not_map
  have text : cellSection part cells ++ s =
      part.name.toList ++ (writeCells cells ++ '\n' :: s) := by
    simp [cellSection]
  have whole : part.name.toList ++ (writeCells cells ++ '\n' :: s) =
      cellLine part cells ++ '\n' :: s := by
    simp [cellLine]
  rw [text, scan_name (letters_name part) name.1 (head_cells_newline cells s), if_neg name.2.1,
    if_neg name.2.2, whole,
    before_append (line.not_mem (by decide)), after_append (line.not_mem (by decide)),
    trim_of_solid line]

/-! ## The pieces of a written level -/

def cellPiece (part : Section) (cells : List Coord) : Piece := .directive (cellLine part cells)

def basePieces (l : Level) : List Piece :=
  [.map ('\n' :: writeMap l.tiles)] ++
  (if l.origin = .zero then [] else [cellPiece .origin [l.origin]]) ++
  [cellPiece .puffle [l.spawn]] ++
  (if l.keys = [] then [] else [cellPiece .keys l.keys]) ++
  (if l.blocks = [] then [] else [cellPiece .blocks l.blocks]) ++
  l.bag.toList.map fun c => cellPiece .bag [c]

def patchPieces (p : Patch) : List Piece :=
  [.map ('\n' :: writeMap p.tiles), cellPiece .origin [p.origin]]

/-! ## Drafts -/

theorem readDirective_cellLine {part : Section} {cells : List Coord} (ne : cells ≠ [])
    (h : ∀ c ∈ cells, c.Writable) :
    readDirective (cellLine part cells) = .ok (part.name, cells) := by
  obtain ⟨name, args⟩ := takeWhile_dropWhile_append (List.all_eq_true.1 (letters_name part))
    (head_writeCells cells)
  have named : part.name.toList ≠ [] := by cases part <;> decide
  simp only [readDirective, cellLine, nameOf, afterName, name, args, named, if_false,
    readCells_writeCells _ ne h, ok_bind, String.ofList_toList]
  rfl

theorem fillCells_nil (part : Section) (cells : List Coord) :
    fillCells part [] cells = .ok cells := by
  simp [fillCells]

theorem fillCell_none (part : Section) (line : List Char) (c : Coord) :
    fillCell part none line [c] = .ok c := by
  simp [fillCell]

end LevelText

/-- A level whose maps fit the board and whose coordinates a level text can hold. -/
structure Level.Writable (l : Level) : Prop where
  tiles : l.tiles.Proper
  origin : l.origin.Writable
  spawn : l.spawn.Writable
  keys : ∀ c ∈ l.keys, c.Writable
  blocks : ∀ c ∈ l.blocks, c.Writable
  bag : ∀ c ∈ l.bag, c.Writable
  patches : ∀ p ∈ l.patches, p.tiles.Proper ∧ p.origin.Writable

namespace LevelText

open Text Piece

theorem addPiece_map {d : Draft} {m : TileMap} (new : d.map = none) (proper : m.Proper) :
    addPiece d (.map ('\n' :: writeMap m)) = .ok { d with map := some m } := by
  simp only [addPiece, fillMap, readMap_writeMap proper, new]
  rfl

theorem addPiece_cells {d : Draft} {part : Section} {cells : List Coord} (ne : cells ≠ [])
    (h : ∀ c ∈ cells, c.Writable) :
    addPiece d (cellPiece part cells) =
      match part with
      | .origin => do
        return { d with origin := ← fillCell .origin d.origin (cellLine part cells) cells }
      | .puffle => do
        return { d with spawn := ← fillCell .puffle d.spawn (cellLine part cells) cells }
      | .bag => do return { d with bag := ← fillCell .bag d.bag (cellLine part cells) cells }
      | .keys => do return { d with keys := ← fillCells .keys d.keys cells }
      | .blocks => do return { d with blocks := ← fillCells .blocks d.blocks cells }
      | .map => .error (.unknownSection part.name) := by
  simp only [addPiece, cellPiece, addDirective, readDirective_cellLine ne h, ok_bind,
    Section.ofName?_name]
  cases part <;> rfl

end LevelText
end IceMaze
