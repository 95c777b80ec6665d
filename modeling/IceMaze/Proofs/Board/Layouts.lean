import IceMaze.Proofs.Board.Drawing
import IceMaze.Proofs.Level.Acceptance

/-!
The layouts that reach the board.

What a reader returns is well placed, and so are the layouts that are drawn from it, with and
without its patches. So every tile of a layout lies on a cell of the board, which shows it
(`layouts_stay_on_board`).
-/

namespace IceMaze

namespace Level

variable {l : Level} {x y : Nat} {k : TileKind}

/-- Where a tile of the map lies. -/
def cellOf (l : Level) (x y : Nat) : Coord := ⟨l.origin.x + x, l.origin.y + y⟩

/-- The map and the maps of the patches. -/
def maps (l : Level) : List TileMap := l.tiles :: l.patches.map Patch.tiles

theorem within_of_get? (here : l.tiles.get? x y = some k) :
    Coord.Within l.origin l.corner (l.cellOf x y) := by
  have inside : x < l.tiles.width ∧ y < l.tiles.height := by
    by_contra outside
    rw [TileMap.get?, if_neg outside] at here
    cases here
  simp only [Coord.Within, corner, TileMap.corner, cellOf]
  omega

theorem tileAt_cellOf (here : l.tiles.get? x y = some k) : l.tileAt (l.cellOf x y) = k := by
  have col : (l.origin.x + (x : Int) - l.origin.x).toNat = x := by omega
  have row : (l.origin.y + (y : Int) - l.origin.y).toNat = y := by omega
  rw [tileAt, isOutOfBounds_eq_false.2 (within_of_get? here), if_neg Bool.false_ne_true]
  simp only [cellOf, col, row, here, Option.getD_some]

theorem WellPlaced.proper (h : l.WellPlaced) : ∀ m ∈ l.maps, m.Proper := by
  intro m hm
  obtain rfl | listed := List.mem_cons.1 hm
  · exact h.writable.tiles
  · obtain ⟨p, hp, rfl⟩ := List.mem_map.1 listed
    exact (h.writable.patches p hp).1

end Level

theorem Board.kind?_draw_cellOf {l : Level} {x y : Nat} {k : TileKind} (placed : l.WellPlaced)
    (here : l.tiles.get? x y = some k) :
    (l.cellOf x y).OnBoard ∧ (draw l).kind? (l.cellOf x y) = some k := by
  have on := placed.onBoard (Level.within_of_get? here)
  rw [kind?_draw, if_pos on, Level.tileAt_cellOf here]
  exact ⟨on, rfl⟩

/-- Every reader returns levels that are well placed, with maps that are not empty and no larger
than the board. The variants of a well placed level are well placed again, however many patches
make them grow, and no tile of them is off the board when they are drawn. -/
theorem layouts_stay_on_board (l : Level) :
    (l.Accepted → l.WellPlaced) ∧
    (l.WellPlaced →
      (∀ m ∈ l.maps, 0 < m.width ∧ m.width ≤ 19 ∧ 0 < m.height ∧ m.height ≤ 15 ∧
        m.cells.size = m.width * m.height) ∧
      ∀ alt, (l.variant alt).WellPlaced ∧ (l.variant alt).patches = [] ∧
        (l.variant alt).origin = l.origin ∧ (l.variant alt).spawn = l.spawn ∧
        (l.variant alt).keys = l.keys ∧ (l.variant alt).blocks = l.blocks ∧
        (l.variant alt).bag = l.bag ∧
        ∀ x y k, (l.variant alt).tiles.get? x y = some k →
          (l.cellOf x y).OnBoard ∧
          (Board.draw (l.variant alt)).kind? (l.cellOf x y) = some k) := by
  refine ⟨Level.Accepted.wellPlaced, fun placed => ⟨fun m hm => ?_, fun alt => ?_⟩⟩
  · obtain ⟨width_pos, height_pos, width_le, height_le⟩ := placed.proper m hm
    exact ⟨width_pos, width_le, height_pos, height_le, m.size_cells⟩
  · have placed' := Level.variant_wellPlaced placed alt
    exact ⟨placed', rfl, rfl, rfl, rfl, rfl, rfl, fun x y k => Board.kind?_draw_cellOf placed'⟩

/-- A tile of ice to which one patch adds columns, and the next one rows. -/
def annex : Level where
  origin := ⟨1, 1⟩
  spawn := ⟨1, 1⟩
  tiles := .filled 1 1 .ice
  keys := [⟨1, 1⟩]
  blocks := []
  bag := none
  patches := [⟨⟨18, 1⟩, .filled 1 1 .wall⟩, ⟨⟨2, 14⟩, .filled 1 1 .goal⟩]

theorem annex_accepted : annex.Accepted := by decide

/-- With its patches the level ends in the last column and the last row. -/
theorem layouts_stay_on_board_in_annex :
    annex.Accepted ∧ annex.WellPlaced ∧ (annex.variant true).corner = ⟨19, 15⟩ ∧
      (annex.variant false).corner = ⟨2, 2⟩ ∧ (annex.variant true).WellPlaced ∧
      (∀ m ∈ annex.maps, m.width ≤ 19) ∧
      (Board.draw (annex.variant true)).kind? ⟨18, 1⟩ = some .wall ∧
      (Board.draw (annex.variant true)).kind? ⟨2, 14⟩ = some .goal := by
  have placed := (layouts_stay_on_board annex).1 annex_accepted
  obtain ⟨maps, variants⟩ := (layouts_stay_on_board annex).2 placed
  obtain ⟨placed', _, _, _, _, _, _, drawn⟩ := variants true
  have wall : (annex.variant true).tiles.get? 17 0 = some .wall := by decide +kernel
  have goal : (annex.variant true).tiles.get? 1 13 = some .goal := by decide +kernel
  exact ⟨annex_accepted, placed, by decide +kernel, by decide +kernel, placed',
    fun m hm => (maps m hm).2.1, (drawn _ _ _ wall).2, (drawn _ _ _ goal).2⟩

end IceMaze
