import IceMaze.Proofs.Level.Acceptance
import IceMaze.Proofs.Level.MapText
import IceMaze.Proofs.Level.Placement

/-!
Maps that grow and are written over.

A map that grows is laid out anew, row by row with a longer stride; `get?_layRows` finds a cell in
the new layout, and `get?_grow` says that no cell has moved. `get?_overlay` is the same for a map
that another one is written over, and from it `overlays_cover` follows: on a cell of the board the
last patch that covers it is seen.
-/

namespace IceMaze

namespace TileMap

variable {m patch : TileMap} {x y i j : Nat}

/-! ## Rows -/

theorem getElem?_row (hx : x < m.width) (hy : y < m.height) : (m.row y)[x]? = m.get? x y := by
  rw [get?, if_pos ⟨hx, hy⟩, row, List.getElem?_take_of_lt hx, List.getElem?_drop,
    Array.getElem?_toList]

theorem bind_getElem?_rows (m : TileMap) (x y : Nat) :
    (m.rows[y]?.bind fun row => row[x]?) = m.get? x y := by
  by_cases flat : m.width = 0
  · simp [rows, get?, flat]
  · rw [rows, if_neg flat, List.getElem?_map]
    by_cases hy : y < m.height
    · rw [List.getElem?_range hy, Option.map_some, Option.bind_some, filterMap_get? hy]
      by_cases hx : x < m.width
      · exact getElem?_row hx hy
      · rw [List.getElem?_eq_none (by rw [length_row hy]; omega), get?, if_neg fun h => hx h.1]
    · rw [List.getElem?_eq_none (by simpa using hy), get?, if_neg fun h => hy h.2]
      rfl

theorem length_le_of_mem_rows {r : List TileKind} (hr : r ∈ m.rows) : r.length ≤ m.width := by
  unfold rows at hr
  split at hr
  · cases hr
  · obtain ⟨y, _, rfl⟩ := List.mem_map.1 hr
    exact (List.length_filterMap_le _ _).trans_eq List.length_range

/-! ## A map that grows -/

theorem getElem?_layRow {cells : Array TileKind} {start : Nat} {row : List TileKind}
    (inside : i < cells.size) :
    (layRow cells start row)[i]? =
      if start ≤ i then (row[i - start]?).or cells[i]? else cells[i]? := by
  induction row generalizing cells start with
  | nil => simp [layRow]
  | cons k row ih =>
    rw [layRow, ih (by simpa using inside), Array.getElem?_setIfInBounds]
    rcases Nat.lt_trichotomy start i with before | rfl | behind
    · have next : i - start = i - (start + 1) + 1 := by omega
      rw [if_pos (by omega : start + 1 ≤ i), if_neg (by omega), if_pos (by omega), next,
        List.getElem?_cons_succ]
    · simp [inside]
    · rw [if_neg (by omega), if_neg (by omega), if_neg (by omega)]

/-- The cell in column `x` of row `j` is the one of the row that has been laid there. -/
theorem getElem?_layRows {cells : Array TileKind} {width : Nat} {rows : List (List TileKind)}
    (fit : ∀ r ∈ rows, r.length ≤ width) (hx : x < width) (inside : j * width + x < cells.size) :
    (layRows cells width y rows)[j * width + x]? =
      if y ≤ j then (rows[j - y]?.bind fun row => row[x]?).or cells[j * width + x]?
      else cells[j * width + x]? := by
  induction rows generalizing cells y with
  | nil => simp [layRows]
  | cons row rows ih =>
    rw [List.forall_mem_cons] at fit
    rw [layRows, ih fit.2 (by simpa only [size_layRow] using inside), getElem?_layRow inside]
    rcases Nat.lt_trichotomy y j with before | rfl | behind
    · have next : j - y = j - (y + 1) + 1 := by omega
      -- a row ends before the next one starts, so the first of the rows is not seen further down
      have below : y * width + width ≤ j * width := by
        rw [← Nat.succ_mul]
        exact Nat.mul_le_mul_right width before
      have past : row[j * width + x - y * width]? = none :=
        List.getElem?_eq_none (by omega)
      rw [if_pos (by omega : y + 1 ≤ j), if_pos (by omega : y * width ≤ j * width + x), past,
        Option.none_or, if_pos (by omega), next, List.getElem?_cons_succ]
    · simp
    · have above : j * width + width ≤ y * width := by
        rw [← Nat.succ_mul]
        exact Nat.mul_le_mul_right width behind
      rw [if_neg (by omega), if_neg (by omega), if_neg (by omega)]

theorem get?_eq_none (outside : ¬ (x < m.width ∧ y < m.height)) : m.get? x y = none := by
  rw [get?, if_neg outside]

theorem get?_isSome (hx : x < m.width) (hy : y < m.height) : (m.get? x y).isSome := by
  rw [get?, if_pos ⟨hx, hy⟩]
  simpa [m.size_cells] using index_lt hx hy

theorem get?_grow {width height : Nat} :
    (m.grow width height).get? x y =
      if x < max width m.width ∧ y < max height m.height then some ((m.get? x y).getD .empty)
      else none := by
  obtain ⟨grown_width, grown_height⟩ := m.size_grow width height
  split
  · rename_i inside
    obtain ⟨hx, hy⟩ := inside
    unfold grow
    dsimp only
    split
    · rename_i same
      rw [same.1] at hx
      rw [same.2] at hy
      obtain ⟨k, here⟩ := Option.isSome_iff_exists.1 (get?_isSome hx hy)
      rw [here, Option.getD_some]
    · have room := index_lt hx hy
      have fit : ∀ r ∈ m.rows, r.length ≤ max width m.width := fun r hr =>
        (length_le_of_mem_rows hr).trans (Nat.le_max_right ..)
      rw [get?, if_pos ⟨hx, hy⟩]
      dsimp only
      rw [getElem?_layRows fit hx (by simpa using room), if_pos (Nat.zero_le y), Nat.sub_zero,
        bind_getElem?_rows, Array.getElem?_replicate, if_pos room]
      cases m.get? x y <;> rfl
  · rename_i outside
    exact get?_eq_none (by rwa [grown_width, grown_height])

/-! ## A map that is written over -/

/-- The cell of a map that lies `x` columns to the right and `y` rows down. -/
def getAt? (patch : TileMap) (x y i j : Nat) : Option TileKind :=
  if x ≤ i ∧ y ≤ j then patch.get? (i - x) (j - y) else none

theorem mem_placed {p : Nat × Nat} : p ∈ m.placed ↔ p.1 < m.width ∧ p.2 < m.height := by
  obtain ⟨a, b⟩ := p
  simp only [placed, List.mem_flatMap, List.mem_map, List.mem_range, Prod.mk.injEq]
  constructor
  · rintro ⟨_, hb, _, ha, rfl, rfl⟩
    exact ⟨ha, hb⟩
  · rintro ⟨ha, hb⟩
    exact ⟨b, hb, a, ha, rfl, rfl⟩

/-- What is written depends on the place alone, so the order does not matter. -/
theorem get?_foldl_set (k : Nat × Nat → TileKind) (ps : List (Nat × Nat)) (hi : i < m.width)
    (hj : j < m.height) :
    (ps.foldl (fun m p => m.set (x + p.1) (y + p.2) (k p)) m).get? i j =
      if x ≤ i ∧ y ≤ j ∧ (i - x, j - y) ∈ ps then some (k (i - x, j - y)) else m.get? i j := by
  induction ps generalizing m with
  | nil => simp
  | cons p ps ih =>
    obtain ⟨width, height⟩ := m.size_foldl_set (fun q : Nat × Nat => x + q.1) (y + ·.2) k [p]
    simp only [List.foldl_cons, List.foldl_nil] at width height
    rw [List.foldl_cons, ih (by rwa [width]) (by rwa [height]), get?_set]
    by_cases here : i = x + p.1 ∧ j = y + p.2
    · obtain ⟨rfl, rfl⟩ := here
      simp [hi, hj]
    · have elsewhere : x ≤ i → y ≤ j → (i - x, j - y) ≠ p := by
        rintro hx hy rfl
        exact here ⟨by omega, by omega⟩
      rw [if_neg (c := i = x + p.1 ∧ _) fun h => here ⟨h.1, h.2.1⟩]
      by_cases after : x ≤ i ∧ y ≤ j
      · simp [after, elsewhere after.1 after.2]
      · rw [if_neg fun h => after ⟨h.1, h.2.1⟩, if_neg fun h => after ⟨h.1, h.2.1⟩]

theorem get?_overlay :
    (m.overlay x y patch).get? i j =
      if i < max m.width (x + patch.width) ∧ j < max m.height (y + patch.height) then
        some (((patch.getAt? x y i j).or (m.get? i j)).getD .empty)
      else none := by
  rw [Nat.max_comm m.width, Nat.max_comm m.height]
  split
  · rename_i inside
    obtain ⟨width, height⟩ := m.size_grow (x + patch.width) (y + patch.height)
    rw [overlay, get?_foldl_set (fun p => (patch.get? p.1 p.2).getD .empty) _
      (by rw [width]; exact inside.1) (by rw [height]; exact inside.2), get?_grow, if_pos inside]
    by_cases covered : x ≤ i ∧ y ≤ j ∧ (i - x, j - y) ∈ patch.placed
    · obtain ⟨hx, hy, listed⟩ := covered
      obtain ⟨hi, hj⟩ := mem_placed.1 listed
      obtain ⟨k, here⟩ := Option.isSome_iff_exists.1 (get?_isSome hi hj)
      rw [if_pos ⟨hx, hy, listed⟩, getAt?, if_pos ⟨hx, hy⟩, here]
      rfl
    · have uncovered : patch.getAt? x y i j = none := by
        unfold getAt?
        split
        · rename_i after
          exact get?_eq_none fun inside => covered ⟨after.1, after.2, mem_placed.2 inside⟩
        · rfl
      rw [if_neg covered, uncovered, Option.none_or]
  · rename_i outside
    exact get?_eq_none (by rwa [width_overlay, height_overlay])

theorem getD_get?_overlay :
    ((m.overlay x y patch).get? i j).getD .empty =
      ((patch.getAt? x y i j).or (m.get? i j)).getD .empty := by
  rw [get?_overlay]
  split
  · rfl
  · rename_i outside
    have past_patch : patch.getAt? x y i j = none := by
      unfold getAt?
      split
      · exact get?_eq_none (by omega)
      · rfl
    rw [past_patch, get?_eq_none (by omega : ¬ (i < m.width ∧ j < m.height))]
    rfl

/-- The tile of a map that starts at `origin` on a cell of the board. -/
def tileOn (m : TileMap) (origin c : Coord) : TileKind :=
  if origin.x ≤ c.x ∧ origin.y ≤ c.y then
    (m.get? (c.x - origin.x).toNat (c.y - origin.y).toNat).getD .empty
  else .empty

end TileMap

/-- The patch lies over the cell. -/
def Patch.Covers (p : Patch) (c : Coord) : Prop :=
  Coord.Within p.origin (p.tiles.corner p.origin) c

instance (p : Patch) (c : Coord) : Decidable (p.Covers c) := inferInstanceAs (Decidable (_ ∧ _))

namespace Level

variable {l : Level} {origin c : Coord} {m : TileMap} {p : Patch}

theorem within_iff : Coord.Within origin (m.corner origin) c ↔
    (origin.x ≤ c.x ∧ origin.y ≤ c.y) ∧ (c.x - origin.x).toNat < m.width ∧
      (c.y - origin.y).toNat < m.height := by
  simp only [Coord.Within, TileMap.corner]
  omega

theorem get?_of_within (within : Coord.Within origin (m.corner origin) c) :
    m.get? (c.x - origin.x).toNat (c.y - origin.y).toNat = some (m.tileOn origin c) := by
  obtain ⟨after, hx, hy⟩ := within_iff.1 within
  obtain ⟨k, here⟩ := Option.isSome_iff_exists.1 (TileMap.get?_isSome hx hy)
  rw [TileMap.tileOn, if_pos after, here, Option.getD_some]

theorem tileOn_of_not_within (out : ¬ Coord.Within origin (m.corner origin) c) :
    m.tileOn origin c = .empty := by
  rw [TileMap.tileOn]
  split
  · rename_i after
    rw [TileMap.get?_eq_none fun inside => out (within_iff.2 ⟨after, inside⟩)]
    rfl
  · rfl

theorem tileAt_eq (l : Level) (c : Coord) : l.tileAt c = l.tiles.tileOn l.origin c := by
  by_cases within : Coord.Within l.origin l.corner c
  · rw [tileAt, isOutOfBounds_eq_false.2 within, if_neg Bool.false_ne_true, get?_of_within within,
      Option.getD_some]
  · have out : l.isOutOfBounds c = true := by simpa [isOutOfBounds] using within
    rw [tileAt, if_pos out, tileOn_of_not_within within]

/-- A patch is seen where it lies, and what it is written over is seen beside it. -/
theorem tileOn_applyPatch (after : origin.x ≤ p.origin.x ∧ origin.y ≤ p.origin.y) :
    (applyPatch origin m p).tileOn origin c =
      if p.Covers c then p.tiles.tileOn p.origin c else m.tileOn origin c := by
  have covers_iff : p.Covers c ↔ _ := within_iff
  by_cases start : origin.x ≤ c.x ∧ origin.y ≤ c.y
  · rw [TileMap.tileOn, if_pos start, applyPatch, TileMap.getD_get?_overlay, TileMap.getAt?]
    by_cases past : p.origin.x ≤ c.x ∧ p.origin.y ≤ c.y
    · have col : (c.x - origin.x).toNat - (p.origin.x - origin.x).toNat =
          (c.x - p.origin.x).toNat := by omega
      have row : (c.y - origin.y).toNat - (p.origin.y - origin.y).toNat =
          (c.y - p.origin.y).toNat := by omega
      rw [if_pos (by omega), col, row]
      by_cases covers : p.Covers c
      · rw [if_pos covers, get?_of_within covers]
        rfl
      · rw [if_neg covers, TileMap.get?_eq_none fun inside => covers (covers_iff.2 ⟨past, inside⟩),
          Option.none_or, TileMap.tileOn, if_pos start]
    · have elsewhere : ¬ p.Covers c := fun covers => past (covers_iff.1 covers).1
      rw [if_neg (by omega), if_neg elsewhere, Option.none_or, TileMap.tileOn, if_pos start]
  · have elsewhere : ¬ p.Covers c := by
      intro covers
      have past := (covers_iff.1 covers).1
      omega
    rw [TileMap.tileOn, if_neg start, if_neg elsewhere, TileMap.tileOn, if_neg start]

/-- Patches that lie elsewhere are not seen. -/
theorem tileOn_foldl_applyPatch {patches : List Patch}
    (after : ∀ p ∈ patches, origin.x ≤ p.origin.x ∧ origin.y ≤ p.origin.y)
    (elsewhere : ∀ p ∈ patches, ¬ p.Covers c) :
    (patches.foldl (applyPatch origin) m).tileOn origin c = m.tileOn origin c := by
  induction patches generalizing m with
  | nil => rfl
  | cons p patches ih =>
    rw [List.forall_mem_cons] at after elsewhere
    rw [List.foldl_cons, ih after.2 elsewhere.2, tileOn_applyPatch after.1, if_neg elsewhere.1]

end Level

/-- A map that is written over grows in both directions as far as it must. Its cells are those of
the map on top, then its own, and empty where neither has one. In a level with its patches the last
patch over a cell is seen there, the map of the level where there is none, and nothing outside. -/
theorem overlays_cover :
    (∀ (m patch : TileMap) (x y : Nat),
      (m.overlay x y patch).width = max m.width (x + patch.width) ∧
      (m.overlay x y patch).height = max m.height (y + patch.height) ∧
      (m.overlay x y patch).cells.size =
        (m.overlay x y patch).width * (m.overlay x y patch).height ∧
      ∀ i j, i < (m.overlay x y patch).width → j < (m.overlay x y patch).height →
        (m.overlay x y patch).get? i j =
          some (((if x ≤ i ∧ y ≤ j then patch.get? (i - x) (j - y) else none).or
            (m.get? i j)).getD .empty)) ∧
    ∀ l : Level, l.WellPlaced → ∀ c,
      (∀ lower p upper, l.patches = lower ++ p :: upper → p.Covers c →
        (∀ q ∈ upper, ¬ q.Covers c) →
        p.tiles.get? (c.x - p.origin.x).toNat (c.y - p.origin.y).toNat =
          some ((l.variant true).tileAt c)) ∧
      ((∀ p ∈ l.patches, ¬ p.Covers c) →
        (Coord.Within l.origin l.corner c →
          l.tiles.get? (c.x - l.origin.x).toNat (c.y - l.origin.y).toNat =
            some ((l.variant true).tileAt c)) ∧
        (¬ Coord.Within l.origin l.corner c → (l.variant true).tileAt c = .empty)) := by
  refine ⟨fun m patch x y => ?_, fun l placed c => ?_⟩
  · have width := m.width_overlay patch x y
    have height := m.height_overlay patch x y
    rw [Nat.max_comm] at width height
    refine ⟨width, height, TileMap.size_cells _, fun i j hi hj => ?_⟩
    rw [width] at hi
    rw [height] at hj
    rw [TileMap.get?_overlay, if_pos ⟨hi, hj⟩, TileMap.getAt?]
  · have shown : (l.variant true).tileAt c =
        (l.patches.foldl (Level.applyPatch l.origin) l.tiles).tileOn l.origin c :=
      Level.tileAt_eq _ c
    rw [shown]
    refine ⟨fun lower p upper listed covers elsewhere => ?_, fun elsewhere => ⟨fun within => ?_,
      fun out => ?_⟩⟩
    · have after := placed.patches_after
      rw [listed, List.forall_mem_append, List.forall_mem_cons] at after
      rw [listed, List.foldl_append, List.foldl_cons,
        Level.tileOn_foldl_applyPatch after.2.2 elsewhere, Level.tileOn_applyPatch after.2.1,
        if_pos covers]
      exact Level.get?_of_within covers
    · rw [Level.tileOn_foldl_applyPatch placed.patches_after elsewhere]
      exact Level.get?_of_within within
    · rw [Level.tileOn_foldl_applyPatch placed.patches_after elsewhere]
      exact Level.tileOn_of_not_within out

/-- Two tiles of ice under two patches that overlap and make the map grow. -/
def terrace : Level where
  origin := ⟨1, 1⟩
  spawn := ⟨1, 1⟩
  tiles := .filled 2 1 .ice
  keys := []
  blocks := []
  bag := none
  patches := [⟨⟨2, 1⟩, .filled 2 2 .wall⟩, ⟨⟨3, 2⟩, .filled 1 2 .goal⟩]

theorem terrace_accepted : terrace.Accepted := by decide

/-- The second patch lies over the first, the first over the ice, and a cell that has come into the
map beside both is empty. -/
theorem overlays_cover_in_terrace :
    terrace.WellPlaced ∧ (terrace.variant true).tileAt ⟨3, 2⟩ = .goal ∧
      (terrace.variant true).tileAt ⟨2, 1⟩ = .wall ∧
      (terrace.variant true).tileAt ⟨1, 1⟩ = .ice ∧
      (terrace.variant true).tileAt ⟨1, 3⟩ = .empty ∧
      (terrace.tiles.overlay 1 0 (.filled 2 2 .wall)).width = 3 := by
  have placed := terrace_accepted.wellPlaced
  obtain ⟨maps, levels⟩ := overlays_cover
  have variant := levels terrace placed
  refine ⟨placed, ?_, ?_, ?_, ?_, (maps ..).1⟩
  · exact (Option.some.inj ((variant ⟨3, 2⟩).1 [⟨⟨2, 1⟩, .filled 2 2 .wall⟩] _ [] rfl (by decide)
      (by decide))).symm
  · exact (Option.some.inj ((variant ⟨2, 1⟩).1 [] _ [⟨⟨3, 2⟩, .filled 1 2 .goal⟩] rfl (by decide)
      (by decide))).symm
  · exact (Option.some.inj (((variant ⟨1, 1⟩).2 (by decide)).1 (by decide))).symm
  · exact ((variant ⟨1, 3⟩).2 (by decide)).2 (by decide)

end IceMaze
