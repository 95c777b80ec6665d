import IceMaze.Proofs.Board.Portals

/-!
A level is drawn over whatever the board shows.

The sweep visits the cells column by column and links two teleporters as soon as it has met the
second. `Swept` is what it has done after some cells: these show the drawing with the links among
them, and all others still show what was there before. Behind the last cell nothing of that is left
(`drawOver_eq`), and `drawOver_tiles` says what each tile then is.
-/

namespace IceMaze.Board

variable {b : Board} {l : Level} {c d : Coord}

/-! ## Pairs of a list that grows -/

section
variable {α : Type}

/-- The last one of an odd number, which `pairs` leaves out. -/
def leftover : List α → Option α
  | _ :: _ :: rest => leftover rest
  | [a] => some a
  | [] => none

theorem leftover_concat (as : List α) (a : α) :
    leftover (as ++ [a]) = if (leftover as).isSome then none else some a := by
  induction as using leftover.induct with
  | case1 x y rest ih => exact ih
  | case2 x => rfl
  | case3 => rfl

theorem pairs_concat (as : List α) (a : α) :
    pairs (as ++ [a]) = pairs as ++ ((leftover as).map fun first => (first, a)).toList := by
  induction as using leftover.induct with
  | case1 x y rest ih => exact congrArg ((x, y) :: ·) ih
  | case2 x => rfl
  | case3 => rfl

theorem mem_of_leftover {as : List α} {a : α} (h : leftover as = some a) : a ∈ as := by
  induction as using leftover.induct with
  | case1 x y rest ih => simp [ih h]
  | case2 x => simpa [leftover] using h.symm
  | case3 => cases h

theorem isSome_leftover (as : List α) : (leftover as).isSome = decide (as.length % 2 = 1) := by
  induction as using leftover.induct with
  | case1 x y rest ih =>
    rw [leftover, ih, List.length_cons, List.length_cons, Nat.add_assoc, Nat.add_mod_right]
  | case2 x => rfl
  | case3 => rfl

end

/-! ## Links on single cells -/

theorem index?_cellAt {i : Nat} (hi : i < boardArea) : index? (cellAt i) = some ⟨i, hi⟩ := by
  rw [index?_eq_some, Coord.onBoard_iff]
  simp only [cellAt, boardArea, boardWidth, boardHeight, Int.ofNat_eq_natCast] at hi ⊢
  omega

/-- A board is what it shows. -/
theorem eq_of_get? {b' : Board} (h : ∀ c, b.get? c = b'.get? c) : b = b' := by
  obtain ⟨tiles⟩ := b
  obtain ⟨tiles'⟩ := b'
  congr
  apply Vector.ext
  intro i hi
  have shown := h (cellAt i)
  simpa [get?, index?_cellAt hi] using shown

theorem get?_linkPair_congr {b' : Board} (h : b.get? c = b'.get? c) (p : Coord × Coord) :
    (b.linkPair p).get? c = (b'.linkPair p).get? c := by
  simp only [linkPair, get?_modify, h]

theorem get?_linkPair_of_ne {p : Coord × Coord} (first : c ≠ p.1) (second : c ≠ p.2) :
    (b.linkPair p).get? c = b.get? c := by
  rw [linkPair, get?_modify, if_neg second, get?_modify, if_neg first]

theorem get?_linkPairs_of_not_mem {ts : List Coord} (h : c ∉ ts) :
    ((pairs ts).foldl linkPair b).get? c = b.get? c := by
  refine List.foldlRecOn (motive := fun b' => b'.get? c = b.get? c) (pairs ts) linkPair rfl ?_
  intro b' shown p hp
  obtain ⟨first, second⟩ := mem_of_mem_pairs hp
  rw [get?_linkPair_of_ne (ne_of_mem_of_not_mem first h).symm
    (ne_of_mem_of_not_mem second h).symm, shown]

/-- The tiles of a level, with links among the given cells. -/
def joined (l : Level) (ts : List Coord) : Board :=
  (pairs ts).foldl linkPair (build fun c => .fresh (l.tileAt c))

theorem get?_joined_of_not_mem {ts : List Coord} (h : c ∉ ts) :
    (joined l ts).get? c = if c.OnBoard then some (.fresh (l.tileAt c)) else none := by
  rw [joined, get?_linkPairs_of_not_mem h, get?_build]

/-! ## The sweep -/

/-- The teleporters of a level among the given cells. -/
def portals (l : Level) (cs : List Coord) : List Coord :=
  cs.filter fun c => l.tileAt c = .teleporter

/-- The sketch after the cells `cs` have been visited on the board `b`. -/
structure Swept (b : Board) (l : Level) (cs : List Coord) (s : Sketch) : Prop where
  waiting : s.waiting = leftover (portals l cs)
  visited : ∀ c ∈ cs, s.board.get? c = (joined l (portals l cs)).get? c
  untouched : ∀ c, c ∉ cs → s.board.get? c = b.get? c

variable {cs : List Coord} {s : Sketch}

/-- The new tile takes its place among those visited before, which have no link to it yet. -/
theorem Swept.changeTile (swept : Swept b l cs s) (on : c.OnBoard) (new : c ∉ cs) :
    (∀ d ∈ cs ++ [c],
      (s.board.changeTile c (l.tileAt c)).get? d = (joined l (portals l cs)).get? d) ∧
    ∀ d, d ∉ cs ++ [c] → (s.board.changeTile c (l.tileAt c)).get? d = b.get? d := by
  refine ⟨fun d hd => ?_, fun d hd => ?_⟩
  · rw [get?_changeTile]
    by_cases same : d = c
    · subst same
      have bare : d ∉ portals l cs := fun h => new (List.mem_filter.1 h).1
      rw [if_pos ⟨rfl, on⟩, get?_joined_of_not_mem bare, if_pos on]
    · rw [if_neg fun h => same h.1]
      exact swept.visited d (by simpa [same] using hd)
  · rw [List.mem_append, List.mem_singleton, not_or] at hd
    rw [get?_changeTile, if_neg fun h => hd.2 h.1]
    exact swept.untouched d hd.1

theorem Swept.visit (swept : Swept b l cs s) (on : c.OnBoard) (new : c ∉ cs) :
    Swept b l (cs ++ [c]) (s.visit l c) := by
  obtain ⟨visited, untouched⟩ := swept.changeTile on new
  by_cases tele : l.tileAt c = .teleporter
  · have grown : portals l (cs ++ [c]) = portals l cs ++ [c] := by simp [portals, tele]
    have waiting := swept.waiting
    rw [Sketch.visit, if_pos tele]
    cases pending : s.waiting with
    | none =>
      rw [pending] at waiting
      have same : joined l (portals l (cs ++ [c])) = joined l (portals l cs) := by
        rw [joined, grown, pairs_concat, ← waiting]
        simp [joined]
      refine ⟨?_, fun d hd => ?_, untouched⟩
      · rw [grown, leftover_concat, ← waiting]
        rfl
      · rw [same]
        exact visited d hd
    | some first =>
      rw [pending] at waiting
      -- the cell that waits has been visited, so the cells still to come keep what they show
      have met : first ∈ cs := (List.mem_filter.1 (mem_of_leftover waiting.symm)).1
      have linked : joined l (portals l (cs ++ [c])) =
          (joined l (portals l cs)).linkPair (first, c) := by
        rw [joined, grown, pairs_concat, ← waiting]
        simp [joined]
      refine ⟨?_, fun d hd => ?_, fun d hd => ?_⟩
      · rw [grown, leftover_concat, ← waiting]
        rfl
      · rw [linked]
        exact get?_linkPair_congr (visited d hd) _
      · rw [get?_linkPair_of_ne]
        · exact untouched d hd
        · rintro rfl
          exact hd (List.mem_append_left _ met)
        · rintro rfl
          exact hd (by simp)
  · have same : portals l (cs ++ [c]) = portals l cs := by simp [portals, tele]
    rw [Sketch.visit, if_neg tele]
    refine ⟨?_, fun d hd => ?_, untouched⟩
    · rw [same]
      exact swept.waiting
    · rw [same]
      exact visited d hd

theorem swept (b : Board) (l : Level) (nodup : cs.Nodup) (on : ∀ c ∈ cs, c.OnBoard) :
    Swept b l cs (cs.foldl (Sketch.visit l) ⟨b, none⟩) := by
  induction cs using List.reverseRecOn with
  | nil => exact ⟨rfl, nofun, fun _ _ => rfl⟩
  | append_singleton cs c ih =>
    rw [List.nodup_append] at nodup
    have before := ih nodup.1 fun d hd => on d (by simp [hd])
    rw [List.foldl_concat]
    exact before.visit (on c (by simp)) fun h => nodup.2.2 c h c (by simp) rfl

/-- The board is drawn as if it had been empty. -/
theorem drawOver_eq (b : Board) (l : Level) : b.drawOver l = (draw l, unpaired l) := by
  have done := swept b l nodup_boardCells fun c hc => mem_boardCells.1 hc
  have board : (boardCells.foldl (Sketch.visit l) ⟨b, none⟩).board = joined l (teleporters l) := by
    refine eq_of_get? fun c => ?_
    by_cases on : c.OnBoard
    · exact done.visited c (mem_boardCells.2 on)
    · rw [get?_eq_none.2 on, get?_eq_none.2 on]
  refine Prod.ext ?_ ?_
  · rw [drawOver, board]
    rfl
  · simp only [drawOver, unpaired, done.waiting, isSome_leftover]
    have rest := Nat.mod_two_eq_zero_or_one (portals l boardCells).length
    change (if _ then 1 else 0) = (portals l boardCells).length % 2
    rcases rest with even | odd
    · simp [even]
    · simp [odd]

/-! ## Every tile of the drawing -/

/-- Counted from 0, the even ones of a list are linked to the odd ones behind them. -/
theorem link?_linkPairs {ts : List Coord} (nodup : ts.Nodup) (on : ∀ c ∈ ts, c.OnBoard)
    (bare : ∀ c ∈ ts, b.link? c = none) (k : Nat) :
    (ts[2 * k]? = some c → ((pairs ts).foldl linkPair b).link? c = ts[2 * k + 1]?) ∧
    (ts[2 * k + 1]? = some c → ((pairs ts).foldl linkPair b).link? c = ts[2 * k]?) := by
  induction ts using pairs.induct generalizing b k with
  | case1 x y rest ih =>
    simp only [List.nodup_cons, List.mem_cons, not_or] at nodup
    obtain ⟨⟨distinct, x_gone⟩, y_gone, nodup⟩ := nodup
    have on_x := on x (by simp)
    have on_y := on y (by simp)
    have link := link?_linkPair (b := b) on_x on_y
    have later {e : Coord} (gone : e ∉ rest) :
        ((pairs rest).foldl linkPair (b.linkPair (x, y))).link? e =
          (b.linkPair (x, y)).link? e := by
      rw [link?, get?_linkPairs_of_not_mem gone, link?]
    rw [pairs, List.foldl_cons]
    cases k with
    | zero =>
      refine ⟨fun here => ?_, fun here => ?_⟩
      · obtain rfl : x = c := by simpa using here
        rw [later x_gone, link, if_neg distinct, if_pos rfl]
        rfl
      · obtain rfl : y = c := by simpa using here
        rw [later y_gone, link, if_pos rfl]
        rfl
    | succ k =>
      have bare' : ∀ e ∈ rest, (b.linkPair (x, y)).link? e = none := by
        intro e he
        rw [link, if_neg (ne_of_mem_of_not_mem he y_gone), if_neg (ne_of_mem_of_not_mem he x_gone)]
        exact bare e (by simp [he])
      exact ih nodup (fun e he => on e (by simp [he])) bare' k
  | case2 ts short =>
    have none_left : pairs ts = [] := by
      rw [pairs]
      exact short
    rw [none_left]
    cases ts with
    | nil => simp
    | cons x ts =>
      cases ts with
      | nil =>
        refine ⟨fun here => ?_, fun here => ?_⟩
        · rw [List.getElem?_eq_none (by simp)]
          exact bare c (List.mem_of_getElem? here)
        · simp at here
      | cons y rest => exact absurd rfl (short x y rest)

theorem pairwise_boardCells :
    boardCells.Pairwise fun c d => c.x < d.x ∨ c.x = d.x ∧ c.y < d.y := by
  refine List.pairwise_flatMap.2 ⟨fun x _ => ?_, ?_⟩
  · refine List.pairwise_map.2 (List.pairwise_lt_range.imp fun above => ?_)
    exact .inr ⟨rfl, Int.ofNat_lt.2 above⟩
  · refine List.pairwise_lt_range.imp fun {x z} left c hc d hd => ?_
    obtain ⟨_, _, rfl⟩ := List.mem_map.1 hc
    obtain ⟨_, _, rfl⟩ := List.mem_map.1 hd
    exact .inl (Int.ofNat_lt.2 left)

theorem link?_draw {l : Level} {c : Coord} :
    (draw l).link? c = (joined l (teleporters l)).link? c := by
  have placeKey (b : Board) (d : Coord) : (b.placeKey d).link? c = b.link? c :=
    link?_modify fun _ => rfl
  exact foldl_keeps (·.link? c) placeKey l.keys _

theorem get?_draw {l : Level} {c : Coord} (on : c.OnBoard) :
    (draw l).get? c =
      some ⟨l.tileAt c, (joined l (teleporters l)).link? c, none, decide (c ∈ l.keys), false,
        false⟩ := by
  obtain ⟨t, shown⟩ := Option.isSome_iff_exists.1 ((draw l).get?_isSome.trans (decide_eq_true on))
  have kind := kind?_draw (l := l) (c := c)
  have link := link?_draw (l := l) (c := c)
  have block := blockOn?_draw (l := l) (c := c)
  have key := hasKey_draw (l := l) (c := c)
  have bag := hasBag_draw (l := l) (c := c)
  have plaid := isPlaid_draw (l := l) (c := c)
  rw [kind?, shown, if_pos on] at kind
  rw [link?, shown] at link
  rw [blockOn?, shown] at block
  rw [hasKey, shown] at key
  rw [hasBag, shown] at bag
  rw [isPlaid, shown] at plaid
  simp only [Option.map_some, Option.bind_some, Option.getD_some, Option.some.injEq] at *
  have keyed : t.key = decide (c ∈ l.keys) := by
    rw [Bool.eq_iff_iff, key, decide_eq_true_eq, and_iff_right on]
  rw [shown]
  cases t
  simp only [Option.some.injEq, Tile.mk.injEq]
  exact ⟨kind, link, block, keyed, bag, plaid⟩

/-- Whatever the board showed before, each cell gets the tile of the level with the keys of the
level and nothing else on it, and its teleporters, taken column by column, are linked two by two;
the last of an odd number is told as left over. -/
theorem drawOver_tiles (b : Board) (l : Level) :
    (∀ b' : Board, b'.drawOver l = b.drawOver l) ∧
    (∀ c, c ∈ teleporters l ↔ (b.drawOver l).1.kind? c = some .teleporter) ∧
    (teleporters l).Pairwise (fun c d => c.x < d.x ∨ c.x = d.x ∧ c.y < d.y) ∧
    (b.drawOver l).2 = (if (teleporters l).length % 2 = 1 then 1 else 0) ∧
    ∀ c, c.OnBoard → ∃ link,
      (b.drawOver l).1.get? c = some {
        kind := l.tileAt c
        link := link
        block := none
        key := decide (c ∈ l.keys)
        bag := false
        plaid := false } ∧
      (c ∉ teleporters l → link = none) ∧
      ∀ k, ((teleporters l)[2 * k]? = some c → link = (teleporters l)[2 * k + 1]?) ∧
        ((teleporters l)[2 * k + 1]? = some c → link = (teleporters l)[2 * k]?) := by
  have unlinked (c : Coord) : (build fun c => .fresh (l.tileAt c)).link? c = none := by
    rw [link?, get?_build]
    split <;> rfl
  refine ⟨fun b' => by rw [drawOver_eq, drawOver_eq], fun c => ?_, pairwise_boardCells.filter _,
    ?_, fun c on => ⟨(joined l (teleporters l)).link? c, ?_, fun other => ?_, fun k => ?_⟩⟩
  · rw [drawOver_eq, kind?_draw_eq_teleporter]
  · rw [drawOver_eq, unpaired]
    rcases Nat.mod_two_eq_zero_or_one (teleporters l).length with even | odd
    · simp [even]
    · simp [odd]
  · rw [drawOver_eq, get?_draw on]
  · rw [link?, get?_joined_of_not_mem other, if_pos on]
    rfl
  · exact link?_linkPairs (nodup_boardCells.filter _) (fun c hc => (mem_teleporters.1 hc).1)
      (fun c _ => unlinked c) k

/-- Three teleporters and a tile of ice with a key. -/
def nook : Level where
  origin := ⟨0, 0⟩
  spawn := ⟨1, 1⟩
  tiles := .build 2 2 fun x y => if (x, y) = (1, 1) then .ice else .teleporter
  keys := [⟨1, 1⟩]
  blocks := []
  bag := none
  patches := []

/-- All tiles have all marks and lead to one cell. -/
def cluttered : Board := build fun _ => ⟨.teleporter, some ⟨5, 5⟩, some 7, true, true, true⟩

/-- The teleporters of the first column are linked, the one beside them is left over. -/
theorem drawOver_tiles_in_nook :
    (cluttered.drawOver nook).2 = 1 ∧
      (cluttered.drawOver nook).1.get? ⟨0, 0⟩ =
        some ⟨.teleporter, some ⟨0, 1⟩, none, false, false, false⟩ ∧
      (cluttered.drawOver nook).1.get? ⟨0, 1⟩ =
        some ⟨.teleporter, some ⟨0, 0⟩, none, false, false, false⟩ ∧
      (cluttered.drawOver nook).1.get? ⟨1, 0⟩ =
        some ⟨.teleporter, none, none, false, false, false⟩ ∧
      (cluttered.drawOver nook).1.get? ⟨1, 1⟩ =
        some ⟨.ice, none, none, true, false, false⟩ := by
  obtain ⟨_, _, _, rest, tiles⟩ := drawOver_tiles cluttered nook
  have listed : teleporters nook = [⟨0, 0⟩, ⟨0, 1⟩, ⟨1, 0⟩] := by decide +kernel
  rw [listed] at rest tiles
  refine ⟨rest, ?_, ?_, ?_, ?_⟩
  · obtain ⟨link, shown, _, pair⟩ := tiles ⟨0, 0⟩ (by decide)
    rw [shown, (pair 0).1 rfl]
    rfl
  · obtain ⟨link, shown, _, pair⟩ := tiles ⟨0, 1⟩ (by decide)
    rw [shown, (pair 0).2 rfl]
    rfl
  · obtain ⟨link, shown, _, pair⟩ := tiles ⟨1, 0⟩ (by decide)
    rw [shown, (pair 1).1 rfl]
    rfl
  · obtain ⟨link, shown, other, _⟩ := tiles ⟨1, 1⟩ (by decide)
    rw [shown, other (by decide)]
    rfl

end IceMaze.Board
