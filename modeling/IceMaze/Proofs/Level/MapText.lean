import IceMaze.Level.Text.Piece
import IceMaze.Level.Text.TileRow
import IceMaze.Proofs.Text.Scanning
import Mathlib.Data.List.Basic

/-!
Maps are read back as they are written.

A row is the expansion of its runs (`expand_runs`), a written row is read as itself
(`readRow_writeRow`), and so are all rows of a map that fits the board (`readMap_writeMap`).
-/

namespace IceMaze

namespace TileMap

/-- The map is not empty and not larger than the board. -/
def Proper (m : TileMap) : Prop := 0 < m.width ∧ 0 < m.height ∧ Fits m.width m.height

/-! ## Rows -/

def row (m : TileMap) (y : Nat) : List TileKind := (m.cells.toList.drop (y * m.width)).take m.width

theorem length_row {m : TileMap} {y : Nat} (hy : y < m.height) : (m.row y).length = m.width := by
  have room : (y + 1) * m.width ≤ m.width * m.height := by
    rw [Nat.mul_comm m.width]
    exact Nat.mul_le_mul_right _ hy
  rw [Nat.add_mul, Nat.one_mul] at room
  simp only [row, List.length_take, List.length_drop, Array.length_toList, m.size_cells]
  omega

theorem filterMap_get? {m : TileMap} {y : Nat} (hy : y < m.height) :
    (List.range m.width).filterMap (fun x => m.get? x y) = m.row y := by
  have length := length_row hy
  have each : ∀ x ∈ List.range m.width, m.get? x y = some ((m.row y)[x]?.getD .empty) := by
    intro x hx
    have hx := List.mem_range.1 hx
    have inside : y * m.width + x < m.cells.size := m.size_cells ▸ index_lt hx hy
    have in_row : x < (m.row y).length := by omega
    rw [get?, if_pos ⟨hx, hy⟩, List.getElem?_eq_getElem in_row, Array.getElem?_eq_getElem inside]
    simp [row]
  rw [List.filterMap_eq_map_iff_forall_eq_some.2 each]
  apply List.ext_getElem (by simp [length])
  intro x _ in_row
  simp [in_row]

theorem rows_eq {m : TileMap} (h : m.Proper) : m.rows = (List.range m.height).map m.row := by
  rw [rows, if_neg (Nat.pos_iff_ne_zero.1 h.1)]
  exact List.map_congr_left fun y hy => filterMap_get? (List.mem_range.1 hy)

theorem flatten_rows {m : TileMap} (h : m.Proper) : m.rows.flatten = m.cells.toList := by
  have upTo : ∀ n, ((List.range n).map m.row).flatten = m.cells.toList.take (n * m.width) := by
    intro n
    induction n with
    | zero => simp
    | succ n ih =>
      rw [List.range_succ, List.map_append, List.flatten_append, ih, Nat.add_mul, Nat.one_mul,
        List.take_add]
      simp [row]
  rw [rows_eq h, upTo]
  exact List.take_of_length_le (by simp [m.size_cells, Nat.mul_comm])

theorem length_of_mem_rows {m : TileMap} (h : m.Proper) {r : List TileKind} (hr : r ∈ m.rows) :
    r.length = m.width := by
  rw [rows_eq h, List.mem_map] at hr
  obtain ⟨y, hy, rfl⟩ := hr
  exact length_row (List.mem_range.1 hy)

/-- The rows of a map make the map again. -/
theorem ofRows_rows {m : TileMap} (h : m.Proper) : ofRows m.rows = .ok m := by
  have height : m.rows.length = m.height := by simp [rows_eq h]
  have width : (m.rows.head?.map List.length).getD 0 = m.width := by
    cases first : m.rows with
    | nil =>
      have := h.2.1
      simp [first] at height
      omega
    | cons r rest => simpa using length_of_mem_rows h (first ▸ List.mem_cons_self)
  unfold ofRows
  simp only [width]
  rw [if_neg (Nat.pos_iff_ne_zero.1 h.1)]
  split
  · rename_i y uneven
    obtain ⟨bound, other, _⟩ := List.findIdx?_eq_some_iff_getElem.1 uneven
    have same := length_of_mem_rows h (List.getElem_mem bound)
    rw [width] at other
    simp [same] at other
  · rw [if_pos (by rw [height]; exact h.2.2)]
    cases m
    simp only [Except.ok.injEq, TileMap.mk.injEq, true_and]
    exact ⟨height, by rw [flatten_rows h]⟩

end TileMap

namespace LevelText

open Text

/-! ## Runs -/

def expand (rs : List (Nat × TileKind)) : List TileKind :=
  rs.flatMap fun r => List.replicate r.1 r.2

theorem expand_runs (row : List TileKind) : expand (runs row) = row := by
  induction row with
  | nil => rfl
  | cons k row ih =>
    rw [runs]
    split
    · rename_i n j rest first
      rw [first] at ih
      split
      · rename_i same
        subst same
        simpa [expand, List.replicate_succ] using ih
      · simpa [expand] using ih
    · rename_i first
      rw [first] at ih
      simpa [expand] using ih

theorem pos_of_mem_runs {row : List TileKind} {r : Nat × TileKind} (h : r ∈ runs row) :
    1 ≤ r.1 := by
  induction row generalizing r with
  | nil => simp [runs] at h
  | cons k row ih =>
    rw [runs] at h
    split at h
    · rename_i n j rest first
      rw [first] at ih
      split at h
      · rcases List.mem_cons.1 h with rfl | h
        · simp
        · exact ih (List.mem_cons_of_mem _ h)
      · rcases List.mem_cons.1 h with rfl | h
        · simp
        · exact ih h
    · simp_all

theorem le_of_mem_runs {row : List TileKind} {r : Nat × TileKind} (h : r ∈ runs row) :
    r.1 ≤ row.length := by
  have part : (List.replicate r.1 r.2).Sublist (expand (runs row)) := by
    rw [expand, List.flatMap_def]
    exact List.sublist_flatten_of_mem (List.mem_map_of_mem h)
  simpa [expand_runs] using part.length_le

theorem runs_ne_nil {row : List TileKind} (h : row ≠ []) : runs row ≠ [] := by
  intro none
  have := expand_runs row
  rw [none] at this
  exact h this.symm

/-! ## Words -/

theorem isLetter_iff {c : Char} :
    isLetter c = true ↔ (0x61 ≤ c.toNat ∧ c.toNat ≤ 0x7A) ∨ (0x41 ≤ c.toNat ∧ c.toNat ≤ 0x5A) := by
  simp only [isLetter, Bool.or_eq_true, Bool.and_eq_true, decide_eq_true_eq, Char.le_def,
    UInt32.le_iff_toNat_le]
  rfl

theorem isBlank_of_isLetter {c : Char} (h : isLetter c = true) : isBlank c = false := by
  rcases isLetter_iff.1 h with ⟨low, high⟩ | ⟨low, high⟩ <;>
    exact isBlank_of_printed (by omega) (by omega)

theorem isDigit_of_isLetter {c : Char} (h : isLetter c = true) : isDigit c = false := by
  rw [← Bool.not_eq_true, isDigit_iff]
  rw [isLetter_iff] at h
  omega

theorem isLetter_token (k : TileKind) : ∀ c ∈ k.token.toList, isLetter c = true :=
  List.all_eq_true.1 (by cases k <;> decide)

theorem token_ne_nil (k : TileKind) : k.token.toList ≠ [] := by
  cases k <;> decide

theorem solid_token (k : TileKind) : Solid k.token.toList := fun c hc =>
  isBlank_of_isLetter (isLetter_token k c hc)

/-! ## Rows -/

theorem readRun_writeRun (map : List Char) (i : Nat) {r : Nat × TileKind} (pos : 1 ≤ r.1)
    (bound : r.1 ≤ boardWidth) :
    readRun map i (writeRun r) = .ok (List.replicate r.1 r.2) := by
  obtain ⟨n, k⟩ := r
  have word : ∀ c ∈ k.token.toList.head?, isDigit c = false := fun c hc =>
    isDigit_of_isLetter (isLetter_token k c (List.mem_of_mem_head? hc))
  by_cases one : n = 1
  · subst one
    obtain ⟨count, rest⟩ := takeWhile_dropWhile_append (s := []) (p := isDigit) nofun word
    rw [List.nil_append] at count rest
    simp [readRun, writeRun, count, rest, TileKind.ofToken?_token]
  · obtain ⟨count, rest⟩ := takeWhile_dropWhile_append
      (fun c hc => List.all_eq_true.1 (all_isDigit_digits n) c hc) word
    simp [readRun, writeRun, one, count, rest, TileKind.ofToken?_token, digits_ne_nil,
      value_digits, pos, bound]

theorem solid_writeRun (r : Nat × TileKind) : Solid (writeRun r) := by
  rw [writeRun]
  split
  · exact Solid.nil.append (solid_token _)
  · exact (solid_digits _).append (solid_token _)

theorem not_mem_writeRun {c : Char} (letter : isLetter c = false) (digit : isDigit c = false)
    (r : Nat × TileKind) : c ∉ writeRun r := by
  rw [writeRun, List.mem_append]
  rintro (count | word)
  · split at count
    · cases count
    · have := List.all_eq_true.1 (all_isDigit_digits r.1) c count
      rw [digit] at this
      cases this
  · have := isLetter_token r.2 c word
    rw [letter] at this
    cases this

theorem mapM_eq_ok {ε α β : Type} {f : α → Except ε β} {g : α → β} {as : List α}
    (h : ∀ a ∈ as, f a = .ok (g a)) : as.mapM f = .ok (as.map g) := by
  induction as with
  | nil => rfl
  | cons a as ih =>
    rw [List.forall_mem_cons] at h
    rw [List.mapM_cons, h.1, ih h.2]
    rfl

theorem readRow_writeRow (map : List Char) (i : Nat) {row : List TileKind} (ne : row ≠ [])
    (bound : row.length ≤ boardWidth) : readRow map i (writeRow row) = .ok row := by
  have pieces : splitAt ',' (writeRow row) = (runs row).map writeRun := by
    apply splitAt_joinWith (by simpa using runs_ne_nil ne)
    intro p hp
    obtain ⟨r, _, rfl⟩ := List.mem_map.1 hp
    exact not_mem_writeRun (by decide) (by decide) r
  have trimmed : ((runs row).map writeRun).map trim = (runs row).map writeRun := by
    rw [List.map_map]
    exact List.map_congr_left fun r _ => trim_of_solid (solid_writeRun r)
  have read : ((runs row).map writeRun).mapM (readRun map i) =
      .ok ((runs row).map fun r => List.replicate r.1 r.2) := by
    rw [List.mapM_map]
    exact mapM_eq_ok fun r hr =>
      readRun_writeRun map i (pos_of_mem_runs hr) (Nat.le_trans (le_of_mem_runs hr) bound)
  rw [readRow, pieces, trimmed, read]
  exact congrArg Except.ok ((List.flatMap_def ..).symm.trans (expand_runs row))

/-! ## Lines -/

/-- A line with a word on it and no blanks. -/
structure Ordinary (line : List Char) : Prop where
  solid : Solid line
  word : ∃ c ∈ line, isLetter c = true

theorem Ordinary.ne_nil {line : List Char} (h : Ordinary line) : line ≠ [] := by
  obtain ⟨c, hc, _⟩ := h.word
  exact List.ne_nil_of_mem hc

theorem Ordinary.append {s t : List Char} (h : Ordinary s) (ht : Solid t) : Ordinary (s ++ t) := by
  obtain ⟨c, hc, letter⟩ := h.word
  exact ⟨h.solid.append ht, c, List.mem_append_left _ hc, letter⟩

theorem ordinary_writeRow {row : List TileKind} (ne : row ≠ []) : Ordinary (writeRow row) := by
  constructor
  · apply solid_joinWith (by decide)
    intro p hp
    obtain ⟨r, _, rfl⟩ := List.mem_map.1 hp
    exact solid_writeRun r
  · obtain ⟨r, hr⟩ := List.exists_mem_of_ne_nil _ (runs_ne_nil ne)
    obtain ⟨c, hc⟩ := List.exists_mem_of_ne_nil _ (token_ne_nil r.2)
    exact ⟨c, mem_joinWith_of_mem (List.mem_map_of_mem hr) (List.mem_append_right _ hc),
      isLetter_token r.2 c hc⟩

theorem row_ne_nil {m : TileMap} (h : m.Proper) {row : List TileKind} (hr : row ∈ m.rows) :
    row ≠ [] := by
  rintro rfl
  have := TileMap.length_of_mem_rows h hr
  exact Nat.ne_of_lt h.1 this

theorem ordinary_of_mem_rows {m : TileMap} (h : m.Proper) :
    ∀ line ∈ m.rows.map writeRow, Ordinary line := by
  intro line hl
  obtain ⟨row, hr, rfl⟩ := List.mem_map.1 hl
  exact ordinary_writeRow (row_ne_nil h hr)

/-! ## Maps -/

theorem readRows_writeRow (map : List Char) {rows : List (List TileKind)}
    (h : ∀ row ∈ rows, row ≠ [] ∧ row.length ≤ boardWidth) (i : Nat) :
    readRows map i (rows.map writeRow) = .ok rows := by
  induction rows generalizing i with
  | nil => rfl
  | cons row rows ih =>
    rw [List.forall_mem_cons] at h
    rw [List.map_cons, readRows, readRow_writeRow map i h.1.1 h.1.2, ih h.2]
    rfl

theorem rowLines_writeMap {m : TileMap} (h : m.Proper) :
    rowLines (writeMap m) = m.rows.map writeRow := by
  have ordinary := ordinary_of_mem_rows h
  have split : lines (writeMap m) = m.rows.map writeRow :=
    lines_joinWith fun l hl => ⟨(ordinary l hl).solid.not_mem (by decide),
      (ordinary l hl).solid.not_mem (by decide), (ordinary l hl).ne_nil⟩
  have trimmed : (m.rows.map writeRow).map trim = (m.rows.map writeRow).map id :=
    List.map_congr_left fun l hl => trim_of_solid (ordinary l hl).solid
  rw [rowLines, split, trimmed, List.map_id]
  exact List.filter_eq_self.2 fun l hl => by simpa using (ordinary l hl).ne_nil

/-- What stands between `map` and `;` in a written level is read as the map. -/
theorem readMap_writeMap {m : TileMap} (h : m.Proper) : readMap ('\n' :: writeMap m) = .ok m := by
  have trimmed : trim ('\n' :: writeMap m) = writeMap m := by
    rw [trim_blank (by decide)]
    exact trim_joinWith fun l hl =>
      ⟨(ordinary_of_mem_rows h l hl).solid, (ordinary_of_mem_rows h l hl).ne_nil⟩
  have rows : ∀ row ∈ m.rows, row ≠ [] ∧ row.length ≤ boardWidth := fun row hr =>
    ⟨row_ne_nil h hr, TileMap.length_of_mem_rows h hr ▸ h.2.2.1⟩
  simp only [readMap, trimmed, rowLines_writeMap h, readRows_writeRow _ rows]
  exact TileMap.ofRows_rows h

theorem semicolon_not_mem_writeMap (m : TileMap) : ';' ∉ writeMap m := by
  intro h
  rcases mem_joinWith h with newline | ⟨line, hl, h⟩
  · exact absurd newline (by decide)
  · obtain ⟨row, _, rfl⟩ := List.mem_map.1 hl
    rcases mem_joinWith h with comma | ⟨run, hr, h⟩
    · exact absurd comma (by decide)
    · obtain ⟨r, _, rfl⟩ := List.mem_map.1 hr
      exact not_mem_writeRun (by decide) (by decide) r h

end LevelText
end IceMaze
