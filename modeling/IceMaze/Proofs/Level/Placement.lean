import IceMaze.Level.Basic
import Mathlib.Algebra.BigOperators.Fin
import Mathlib.Data.List.Nodup

/-!
Well placed levels.

Their cells are cells of the board, their variants are well placed as well (`variant_wellPlaced`),
and a sweep of the board meets each tile of the map (`sum_meltValue_tileAt`).
-/

namespace IceMaze

namespace TileMap

variable (m patch : TileMap)

theorem size_foldl_set {α : Type} (x y : α → Nat) (k : α → TileKind) (as : List α) :
    (as.foldl (fun m a => m.set (x a) (y a) (k a)) m).width = m.width ∧
      (as.foldl (fun m a => m.set (x a) (y a) (k a)) m).height = m.height := by
  induction as generalizing m with
  | nil => exact ⟨rfl, rfl⟩
  | cons a as ih =>
    have kept : (m.set (x a) (y a) (k a)).width = m.width ∧
        (m.set (x a) (y a) (k a)).height = m.height := by
      unfold set
      split <;> exact ⟨rfl, rfl⟩
    rw [List.foldl_cons, (ih _).1, (ih _).2]
    exact kept

theorem size_grow (width height : Nat) :
    (m.grow width height).width = max width m.width ∧
      (m.grow width height).height = max height m.height := by
  unfold grow
  dsimp only
  split
  · rename_i same
    exact ⟨same.1.symm, same.2.symm⟩
  · exact ⟨rfl, rfl⟩

theorem width_overlay (x y : Nat) : (m.overlay x y patch).width = max (x + patch.width) m.width :=
  (size_foldl_set _ _ _ _ _).1.trans (m.size_grow _ _).1

theorem height_overlay (x y : Nat) :
    (m.overlay x y patch).height = max (y + patch.height) m.height :=
  (size_foldl_set _ _ _ _ _).2.trans (m.size_grow _ _).2

end TileMap

namespace Level

variable {l : Level}

theorem isOutOfBounds_eq_false {c : Coord} :
    l.isOutOfBounds c = false ↔ Coord.Within l.origin l.corner c := by
  simp [isOutOfBounds]

theorem WellPlaced.onBoard (h : l.WellPlaced) {c : Coord}
    (within : Coord.Within l.origin l.corner c) : c.OnBoard := by
  obtain ⟨x_nonneg, y_nonneg⟩ := h.origin_nonneg
  obtain ⟨_, _, x_le, y_le⟩ := h.fits
  obtain ⟨left, top, right, bottom⟩ := within
  rw [Coord.onBoard_iff]
  simp only [corner, boardWidth, boardHeight] at right bottom x_le y_le
  omega

/-! ## Variants -/

/-- The map covers another one that starts at the same cell. -/
def Covers (large small : TileMap) : Prop := small.width ≤ large.width ∧ small.height ≤ large.height

theorem covers_applyPatch (origin : Coord) (m : TileMap) (p : Patch) :
    Covers (applyPatch origin m p) m := by
  unfold Covers applyPatch
  rw [TileMap.width_overlay, TileMap.height_overlay]
  exact ⟨Nat.le_max_right .., Nat.le_max_right ..⟩

theorem fitsAt_applyPatch {origin : Coord} {m : TileMap} {p : Patch} (fits : FitsAt m origin)
    (after : origin.x ≤ p.origin.x ∧ origin.y ≤ p.origin.y) (patch_fits : FitsAt p.tiles p.origin) :
    FitsAt (applyPatch origin m p) origin := by
  obtain ⟨width_pos, height_pos, x_le, y_le⟩ := fits
  obtain ⟨_, _, patch_x, patch_y⟩ := patch_fits
  simp only [FitsAt, TileMap.corner, applyPatch, TileMap.width_overlay,
    TileMap.height_overlay] at *
  omega

theorem foldl_applyPatch {origin : Coord} (patches : List Patch) {m : TileMap}
    (fits : FitsAt m origin)
    (after : ∀ p ∈ patches, origin.x ≤ p.origin.x ∧ origin.y ≤ p.origin.y)
    (patches_fit : ∀ p ∈ patches, FitsAt p.tiles p.origin) :
    FitsAt (patches.foldl (applyPatch origin) m) origin ∧
      Covers (patches.foldl (applyPatch origin) m) m := by
  induction patches generalizing m with
  | nil => exact ⟨fits, Nat.le_refl _, Nat.le_refl _⟩
  | cons p patches ih =>
    rw [List.forall_mem_cons] at after patches_fit
    obtain ⟨fits, covers⟩ :=
      ih (fitsAt_applyPatch fits after.1 patches_fit.1) after.2 patches_fit.2
    have grown := covers_applyPatch origin m p
    exact ⟨fits, grown.1.trans covers.1, grown.2.trans covers.2⟩

theorem variant_wellPlaced (h : l.WellPlaced) (alt : Bool) : (l.variant alt).WellPlaced := by
  have tiles : FitsAt (l.variant alt).tiles l.origin ∧ Covers (l.variant alt).tiles l.tiles := by
    cases alt with
    | false => exact ⟨h.fits, Nat.le_refl _, Nat.le_refl _⟩
    | true => exact foldl_applyPatch l.patches h.fits h.patches_after h.patches_fit
  obtain ⟨fits, wider, higher⟩ := tiles
  have within : ∀ c, Coord.Within l.origin l.corner c →
      Coord.Within l.origin (l.variant alt).corner c := by
    rintro c ⟨left, top, right, bottom⟩
    refine ⟨left, top, ?_, ?_⟩
    · have : (l.variant alt).corner.x = l.origin.x + (l.variant alt).tiles.width := rfl
      simp only [corner, TileMap.corner] at right
      omega
    · have : (l.variant alt).corner.y = l.origin.y + (l.variant alt).tiles.height := rfl
      simp only [corner, TileMap.corner] at bottom
      omega
  exact {
    origin_nonneg := h.origin_nonneg
    fits := fits
    spawn_within := within _ h.spawn_within
    keys_within := fun c hc => within c (h.keys_within c hc)
    blocks_within := fun c hc => within c (h.blocks_within c hc)
    bag_within := fun c hc => within c (h.bag_within c hc)
    patches_after := nofun
    patches_fit := nofun }

end Level

/-! ## A sweep of the board -/

theorem nodup_boardCells : boardCells.Nodup := by
  refine List.nodup_flatMap.2 ⟨fun x _ => ?_, ?_⟩
  · exact List.nodup_range.map fun y z h => by simpa using h
  · refine List.nodup_range.imp fun {x z} h c hx hz => ?_
    simp only [List.mem_map] at hx hz
    obtain ⟨_, _, rfl⟩ := hx
    obtain ⟨_, _, hz⟩ := hz
    simp only [Coord.mk.injEq, Int.ofNat_eq_natCast, Int.natCast_inj] at hz
    exact h hz.1.symm

/-- Counting over all cells of the board is a sum over a set. -/
theorem sum_boardCells (f : Coord → Nat) :
    (boardCells.map f).sum = ∑ c ∈ boardCells.toFinset, f c :=
  (List.sum_toFinset f nodup_boardCells).symm

namespace Level

variable {l : Level}

theorem totalTileCount_eq :
    l.totalTileCount =
      ∑ i ∈ Finset.range l.tiles.cells.size, (l.tiles.cells[i]?.getD .empty).meltValue := by
  have list_sum : l.totalTileCount = (l.tiles.cells.toList.map TileKind.meltValue).sum := by
    rw [totalTileCount, List.sum, List.foldr_map]
  rw [list_sum, ← Fin.sum_univ_getElem, Finset.sum_range]
  apply Finset.sum_equiv (finCongr (by simp)) (by simp)
  intro i _
  have bound : i.val < l.tiles.cells.size := by simpa using i.isLt
  simp [bound]

theorem col_row_lt {c : Coord} (h : Coord.Within l.origin l.corner c) :
    (c.x - l.origin.x).toNat < l.tiles.width ∧ (c.y - l.origin.y).toNat < l.tiles.height := by
  obtain ⟨left, top, right, bottom⟩ := h
  simp only [corner, TileMap.corner] at right bottom
  omega

/-- The sweep meets each tile of the map once and nothing that melts beside it. -/
theorem sum_meltValue_tileAt (h : l.WellPlaced) :
    (boardCells.map fun c => (l.tileAt c).meltValue).sum = l.totalTileCount := by
  have within : ∀ c ∈ boardCells.toFinset, (l.tileAt c).meltValue ≠ 0 →
      Coord.Within l.origin l.corner c := by
    intro c _ melts
    refine Decidable.byContradiction fun out => melts ?_
    simp [tileAt, isOutOfBounds, out, TileKind.meltValue]
  rw [sum_boardCells, totalTileCount_eq, l.tiles.size_cells, ← Finset.sum_filter_of_ne within]
  obtain ⟨width_pos, -⟩ := h.fits
  refine Finset.sum_bij'
    (fun c _ => (c.y - l.origin.y).toNat * l.tiles.width + (c.x - l.origin.x).toNat)
    (fun i _ => ⟨l.origin.x + (i % l.tiles.width : Nat), l.origin.y + (i / l.tiles.width : Nat)⟩)
    ?_ ?_ ?_ ?_ ?_
  · intro c hc
    obtain ⟨col, row⟩ := col_row_lt (Finset.mem_filter.1 hc).2
    exact Finset.mem_range.2 (TileMap.index_lt col row)
  · intro i hi
    have col : i % l.tiles.width < l.tiles.width := Nat.mod_lt _ width_pos
    have row : i / l.tiles.width < l.tiles.height :=
      Nat.div_lt_of_lt_mul (Finset.mem_range.1 hi)
    have inside : Coord.Within l.origin l.corner
        ⟨l.origin.x + (i % l.tiles.width : Nat), l.origin.y + (i / l.tiles.width : Nat)⟩ := by
      simp only [Coord.Within, corner, TileMap.corner]
      generalize i / l.tiles.width = y at row ⊢
      omega
    exact Finset.mem_filter.2
      ⟨List.mem_toFinset.2 (mem_boardCells.2 (h.onBoard inside)), inside⟩
  · intro c hc
    have inside := (Finset.mem_filter.1 hc).2
    obtain ⟨col, -⟩ := col_row_lt inside
    obtain ⟨left, top, -⟩ := inside
    have hx : ((c.y - l.origin.y).toNat * l.tiles.width + (c.x - l.origin.x).toNat) %
        l.tiles.width = (c.x - l.origin.x).toNat := by
      rw [Nat.mul_add_mod', Nat.mod_eq_of_lt col]
    have hy : ((c.y - l.origin.y).toNat * l.tiles.width + (c.x - l.origin.x).toNat) /
        l.tiles.width = (c.y - l.origin.y).toNat := by
      rw [Nat.add_comm, Nat.add_mul_div_right _ _ width_pos, Nat.div_eq_of_lt col, Nat.zero_add]
    cases c
    simp only [hx, hy, Coord.mk.injEq] at left top ⊢
    omega
  · intro i _
    simp only [add_sub_cancel_left, Int.toNat_natCast]
    exact Nat.div_add_mod' i _
  · intro c hc
    have inside := (Finset.mem_filter.1 hc).2
    obtain ⟨col, row⟩ := col_row_lt inside
    simp [tileAt, isOutOfBounds_eq_false.2 inside, TileMap.get?, col, row]

end Level
end IceMaze
