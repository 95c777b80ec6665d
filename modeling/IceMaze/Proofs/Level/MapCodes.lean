import IceMaze.Proofs.Level.RecordText
import IceMaze.Proofs.Level.Shape

/-!
Maps as rows of tile codes.

A code is one of the numbers from 0 to 13. Rows of codes are decoded to the map that has them, or
refused: for the first cell, row by row, that holds no code, and only if there is none for the shape
of the rows (`maps_decoded_by_codes`). Rows and cells have a lemma each for what is decoded and for
what is refused.
-/

namespace IceMaze.LevelRecord

/-! ## Codes -/

/-- The number is the code of a tile kind. -/
def IsCode (code : Int) : Prop := 0 ≤ code ∧ code ≤ 13

def rowCodes (row : List TileKind) : List Int := row.map fun k => (k.code : Int)

/-- The codes of rows of tile kinds. -/
def mapCodes (rows : List (List TileKind)) : List (List Int) := rows.map rowCodes

/-- The number in column `x` of row `y`. -/
def codeAt? (rows : List (List Int)) (x y : Nat) : Option Int := rows[y]?.bind fun row => row[x]?

/-- Going through the rows one after the other, the cell in column `x` of row `y` is the first that
holds no code. -/
structure FirstUnknown (rows : List (List Int)) (code : Int) (x y : Nat) : Prop where
  here : codeAt? rows x y = some code
  unknown : ¬IsCode code
  known : ∀ x' y' c, y' < y ∨ y' = y ∧ x' < x → codeAt? rows x' y' = some c → IsCode c

/-- There is a first cell, all rows are as long as the first one, and the board has room for
them. -/
structure Rectangle (rows : List (List Int)) : Prop where
  tiled : rows.head?.getD [] ≠ []
  even : ∀ row ∈ rows, row.length = (rows.head?.getD []).length
  fits : TileMap.Fits (rows.head?.getD []).length rows.length

/-- How rows that make no map are refused: for a cell, or else for their shape. -/
inductive CodeFault (rows : List (List Int)) : LevelError → Prop where
  | code {code x y} (first : FirstUnknown rows code x y) :
      CodeFault rows (.unknownTileCode code x y)
  | shape {kinds e} (named : mapCodes kinds = rows) (shape : TileMap.Misshapen kinds e) :
      CodeFault rows e

theorem code_of_ofCode? : ∀ n < 14, (TileKind.ofCode? n).map TileKind.code = some n := by decide

theorem exists_kindOfCode? {code : Int} (h : IsCode code) : ∃ k, kindOfCode? code = some k := by
  obtain ⟨low, high⟩ := h
  have named := code_of_ofCode? code.toNat (by omega)
  obtain ⟨k, found, _⟩ := Option.map_eq_some_iff.1 named
  exact ⟨k, by rw [kindOfCode?, if_pos low, found]⟩

theorem kindOfCode?_eq_some {code : Int} {k : TileKind} :
    kindOfCode? code = some k ↔ code = k.code := by
  constructor
  · intro h
    have low : 0 ≤ code := by
      by_contra negative
      rw [kindOfCode?, if_neg negative] at h
      cases h
    rw [kindOfCode?, if_pos low] at h
    have bound : code.toNat < 14 := (List.getElem?_eq_some_iff.1 h).1
    have named := code_of_ofCode? code.toNat bound
    rw [h, Option.map_some, Option.some.injEq] at named
    omega
  · rintro rfl
    exact kindOfCode?_code k

theorem isCode_code (k : TileKind) : IsCode k.code := by
  have := code_lt k
  constructor <;> omega

theorem kindOfCode?_eq_none {code : Int} : kindOfCode? code = none ↔ ¬IsCode code := by
  constructor
  · intro none known
    obtain ⟨k, found⟩ := exists_kindOfCode? known
    rw [none] at found
    cases found
  · intro unknown
    cases found : kindOfCode? code with
    | none => rfl
    | some k =>
      rw [kindOfCode?_eq_some.1 found] at unknown
      exact absurd (isCode_code k) unknown

theorem isCode_of_mem_mapCodes {kinds : List (List TileKind)} {row : List Int}
    (hrow : row ∈ mapCodes kinds) : ∀ c ∈ row, IsCode c := by
  intro c hc
  obtain ⟨_, _, rfl⟩ := List.mem_map.1 hrow
  obtain ⟨k, _, rfl⟩ := List.mem_map.1 hc
  exact isCode_code k

/-! ## Rows -/

section
variable {x y : Nat} {code : Int} {codes : List Int} {e : LevelError}

theorem decodeRow_eq_ok {kinds : List TileKind} :
    decodeRow y x codes = .ok kinds ↔ rowCodes kinds = codes := by
  constructor
  · intro h
    induction codes generalizing x kinds with
    | nil =>
      cases h
      rfl
    | cons code codes ih =>
      rw [decodeRow] at h
      split at h
      · cases h
      · rename_i k found
        obtain ⟨rest, decoded, h⟩ := bind_eq_ok.1 h
        cases h
        rw [kindOfCode?_eq_some.1 found, ← ih decoded]
        rfl
  · rintro rfl
    exact decodeRow_codes y x kinds

/-- The first number of a row that is no code is named with its column. -/
theorem decodeRow_eq_error :
    decodeRow y x codes = .error e ↔ ∃ i code, codes[i]? = some code ∧ ¬IsCode code ∧
      (∀ j < i, ∀ c, codes[j]? = some c → IsCode c) ∧ e = .unknownTileCode code (x + i) y := by
  induction codes generalizing x with
  | nil =>
    constructor
    · intro h
      cases h
    · rintro ⟨i, code, here, _⟩
      cases here
  | cons code codes ih =>
    rw [decodeRow]
    cases found : kindOfCode? code with
    | none =>
      have unknown := kindOfCode?_eq_none.1 found
      constructor
      · rintro ⟨⟩
        exact ⟨0, code, rfl, unknown, fun j below => absurd below j.not_lt_zero, rfl⟩
      · rintro ⟨i, c, here, _, known, rfl⟩
        cases i with
        | zero =>
          cases here
          rfl
        | succ i => exact absurd (known 0 i.succ_pos code rfl) unknown
    | some k =>
      have known : IsCode code := by
        rw [kindOfCode?_eq_some.1 found]
        exact isCode_code k
      dsimp only
      rw [bind_eq_error]
      constructor
      · rintro (later | ⟨_, _, ⟨⟩⟩)
        obtain ⟨i, c, here, unknown, before, rfl⟩ := ih.1 later
        refine ⟨i + 1, c, here, unknown, ?_, by rw [Nat.add_assoc, Nat.add_comm 1]⟩
        intro j hj d hd
        cases j with
        | zero =>
          cases hd
          exact known
        | succ j => exact before j (Nat.lt_of_succ_lt_succ hj) d hd
      · rintro ⟨i, c, here, unknown, before, rfl⟩
        cases i with
        | zero =>
          cases here
          exact absurd known unknown
        | succ i =>
          left
          apply ih.2
          refine ⟨i, c, here, unknown, ?_, by rw [Nat.add_assoc, Nat.add_comm 1]⟩
          intro j hj
          exact before (j + 1) (Nat.succ_lt_succ hj)

/-! ## Maps -/

variable {rows : List (List Int)}

theorem decodeRows_eq_ok {kinds : List (List TileKind)} :
    decodeRows y rows = .ok kinds ↔ mapCodes kinds = rows := by
  constructor
  · intro h
    induction rows generalizing y kinds with
    | nil =>
      cases h
      rfl
    | cons row rows ih =>
      obtain ⟨first, decoded, h⟩ := bind_eq_ok.1 h
      obtain ⟨more, rest, h⟩ := bind_eq_ok.1 h
      cases h
      rw [← decodeRow_eq_ok.1 decoded, ← ih rest]
      rfl
  · rintro rfl
    exact decodeRows_codes y kinds

theorem exists_decodeRow (known : ∀ c ∈ codes, IsCode c) : ∃ kinds, decodeRow y x codes = .ok kinds := by
  cases decoded : decodeRow y x codes with
  | ok kinds => exact ⟨kinds, rfl⟩
  | error e =>
    obtain ⟨i, c, here, unknown, _⟩ := decodeRow_eq_error.1 decoded
    exact absurd (known c (List.mem_of_getElem? here)) unknown

/-- The rows before the one that is refused hold codes only. -/
theorem decodeRows_eq_error :
    decodeRows y rows = .error e ↔ ∃ j row, rows[j]? = some row ∧
      (∀ i < j, ∀ r, rows[i]? = some r → ∀ c ∈ r, IsCode c) ∧
      decodeRow (y + j) 0 row = .error e := by
  induction rows generalizing y with
  | nil =>
    constructor
    · intro h
      cases h
    · rintro ⟨j, row, here, _⟩
      cases here
  | cons row rows ih =>
    rw [decodeRows, bind_eq_error]
    constructor
    · rintro (bad | ⟨kinds, first, h⟩)
      · exact ⟨0, row, rfl, fun i below => absurd below i.not_lt_zero, bad⟩
      · obtain later | ⟨_, _, ⟨⟩⟩ := bind_eq_error.1 h
        obtain ⟨j, r, here, before, bad⟩ := ih.1 later
        refine ⟨j + 1, r, here, ?_, by rwa [Nat.add_comm j, ← Nat.add_assoc]⟩
        intro i hi s hs
        cases i with
        | zero =>
          cases hs
          have named : row ∈ mapCodes [kinds] := by
            rw [← decodeRow_eq_ok.1 first]
            exact List.mem_singleton.2 rfl
          exact isCode_of_mem_mapCodes named
        | succ i => exact before i (Nat.lt_of_succ_lt_succ hi) s hs
    · rintro ⟨j, r, here, before, bad⟩
      cases j with
      | zero =>
        cases here
        exact .inl bad
      | succ j =>
        obtain ⟨kinds, first⟩ : ∃ kinds, decodeRow y 0 row = .ok kinds :=
          exists_decodeRow (before 0 j.succ_pos row rfl)
        rw [Nat.add_comm j, ← Nat.add_assoc] at bad
        refine .inr ⟨kinds, first, bind_eq_error.2 (.inl (ih.2 ⟨j, r, here, ?_, bad⟩))⟩
        intro i hi
        exact before (i + 1) (Nat.succ_lt_succ hi)

/-- Rows are refused before their shape is looked at exactly for the first cell without a code. -/
theorem decodeRows_eq_error_iff_first :
    decodeRows 0 rows = .error e ↔
      ∃ code x y, FirstUnknown rows code x y ∧ e = .unknownTileCode code x y := by
  simp only [decodeRows_eq_error, decodeRow_eq_error, Nat.zero_add]
  constructor
  · rintro ⟨y, row, here, above, x, code, cell, unknown, before, rfl⟩
    refine ⟨code, x, y, ⟨?_, unknown, ?_⟩, rfl⟩
    · rw [codeAt?, here, Option.bind_some, cell]
    · intro x' y' c order found
      obtain ⟨r, hr, hc⟩ := Option.bind_eq_some_iff.1 found
      obtain earlier | ⟨rfl, left⟩ := order
      · exact above y' earlier r hr c (List.mem_of_getElem? hc)
      · rw [here] at hr
        cases hr
        exact before x' left c hc
  · rintro ⟨code, x, y, ⟨found, unknown, known⟩, rfl⟩
    obtain ⟨row, here, cell⟩ := Option.bind_eq_some_iff.1 found
    refine ⟨y, row, here, ?_, x, code, cell, unknown, ?_, rfl⟩
    · intro y' above r hr c hc
      obtain ⟨x', hx⟩ := List.getElem?_of_mem hc
      exact known x' y' c (.inl above) (by rw [codeAt?, hr, Option.bind_some, hx])
    · intro x' left c hc
      exact known x' y c (.inr ⟨rfl, left⟩) (by rw [codeAt?, here, Option.bind_some, hc])

theorem exists_mapCodes (known : ∀ row ∈ rows, ∀ c ∈ row, IsCode c) :
    ∃ kinds, mapCodes kinds = rows := by
  cases decoded : decodeRows 0 rows with
  | ok kinds => exact ⟨kinds, decodeRows_eq_ok.1 decoded⟩
  | error e =>
    obtain ⟨j, row, here, _, bad⟩ := decodeRows_eq_error.1 decoded
    obtain ⟨kinds, fine⟩ : ∃ kinds, decodeRow (0 + j) 0 row = .ok kinds :=
      exists_decodeRow (known row (List.mem_of_getElem? here))
    rw [fine] at bad
    cases bad

theorem head?_mapCodes (kinds : List (List TileKind)) :
    (mapCodes kinds).head?.getD [] = rowCodes (kinds.head?.getD []) := by
  cases kinds <;> rfl

theorem length_rowCodes (row : List TileKind) : (rowCodes row).length = row.length :=
  List.length_map _

theorem rectangle_of_proper {m : TileMap} (h : m.Proper) : Rectangle (mapCodes m.rows) := by
  have height : m.rows.length = m.height := by
    rw [TileMap.rows_eq h, List.length_map, List.length_range]
  have width : (m.rows.head?.getD []).length = m.width := by
    cases first : m.rows with
    | nil =>
      rw [first] at height
      exact absurd height.symm (Nat.ne_of_gt h.2.1)
    | cons row rest =>
      have member : row ∈ m.rows := by
        rw [first]
        exact List.mem_cons_self
      exact TileMap.length_of_mem_rows h member
  refine ⟨?_, ?_, ?_⟩
  · rw [head?_mapCodes, ne_eq, ← List.length_eq_zero_iff, length_rowCodes, width]
    exact Nat.ne_of_gt h.1
  · intro row hrow
    obtain ⟨kinds, hkinds, rfl⟩ := List.mem_map.1 hrow
    rw [head?_mapCodes, length_rowCodes, length_rowCodes, width]
    exact TileMap.length_of_mem_rows h hkinds
  · rw [head?_mapCodes, length_rowCodes, width, mapCodes, List.length_map, height]
    exact h.2.2

theorem not_rectangle_of_misshapen {kinds : List (List TileKind)} {e : LevelError}
    (h : TileMap.Misshapen kinds e) : ¬Rectangle (mapCodes kinds) := by
  rintro ⟨tiled, even, fits⟩
  rw [head?_mapCodes] at tiled even fits
  cases h with
  | empty flat =>
    rw [flat] at tiled
    exact tiled rfl
  | @uneven first row _ i _ here other =>
    have same := even (rowCodes row) (List.mem_map_of_mem (List.mem_of_getElem? here))
    rw [length_rowCodes, length_rowCodes] at same
    exact other same
  | large _ _ beyond =>
    rw [length_rowCodes, mapCodes, List.length_map] at fits
    exact beyond fits

/-- Rows of numbers make a map exactly if they are a rectangle of codes that fits the board, and it
is the map with these codes. Otherwise the first cell without a code is named, whatever the shape of
the rows, and only without such a cell what is wrong with their shape. -/
theorem maps_decoded_by_codes (rows : List (List Int)) :
    ((∃ m, decodeMap rows = .ok m) ↔ Rectangle rows ∧ ∀ row ∈ rows, ∀ c ∈ row, IsCode c) ∧
    (∀ m, decodeMap rows = .ok m ↔ m.Proper ∧ mapCodes m.rows = rows) ∧
    ∀ e, decodeMap rows = .error e ↔ CodeFault rows e := by
  have accepted (m : TileMap) : decodeMap rows = .ok m ↔ m.Proper ∧ mapCodes m.rows = rows := by
    simp only [decodeMap, bind_eq_ok, decodeRows_eq_ok, TileMap.ofRows_eq_ok]
    constructor
    · rintro ⟨_, named, proper, rfl⟩
      exact ⟨proper, named⟩
    · rintro ⟨proper, named⟩
      exact ⟨m.rows, named, proper, rfl⟩
  refine ⟨⟨?_, ?_⟩, accepted, ?_⟩
  · rintro ⟨m, decoded⟩
    obtain ⟨proper, rfl⟩ := (accepted m).1 decoded
    exact ⟨rectangle_of_proper proper, fun row => isCode_of_mem_mapCodes⟩
  · rintro ⟨rectangle, known⟩
    obtain ⟨kinds, rfl⟩ := exists_mapCodes known
    cases made : TileMap.ofRows kinds with
    | ok m =>
      obtain ⟨proper, rfl⟩ := TileMap.ofRows_eq_ok.1 made
      exact ⟨m, (accepted m).2 ⟨proper, rfl⟩⟩
    | error e =>
      exact absurd rectangle (not_rectangle_of_misshapen (TileMap.ofRows_eq_error.1 made))
  · intro e
    simp only [decodeMap, bind_eq_error, decodeRows_eq_error_iff_first, decodeRows_eq_ok,
      TileMap.ofRows_eq_error]
    constructor
    · rintro (⟨code, x, y, first, rfl⟩ | ⟨kinds, named, shape⟩)
      · exact .code first
      · exact .shape named shape
    · intro fault
      cases fault with
      | code first => exact .inl ⟨_, _, _, first, rfl⟩
      | shape named shape => exact .inr ⟨_, named, shape⟩

-- 256 is 0 in eight bits; the rows are ragged, too
example : decodeMap [[3, 3], [3], [0, 256, -1]] = .error (.unknownTileCode 256 1 2) := by rfl

end
end IceMaze.LevelRecord
