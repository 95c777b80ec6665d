import IceMaze.Board

/-!
What a board has on a cell.

`kind?`, `blockOn?`, `link?`, `hasKey`, `hasBag` and `isPlaid` look at one part of a tile. An
operation that leaves this part of every tile alone cannot be seen through it (`map_get?_modify`,
`foldl_keeps`), and `blockOn?_place` says which number a cell shows after blocks have been written
on a board.
-/

namespace IceMaze.Board

/-- The number of the block that rests on a cell, as the cell has it. -/
def blockOn? (b : Board) (c : Coord) : Option Nat := (b.get? c).bind Tile.block

/-- The other end of a teleporter. -/
def link? (b : Board) (c : Coord) : Option Coord := (b.get? c).bind Tile.link

def hasKey (b : Board) (c : Coord) : Bool := ((b.get? c).map Tile.key).getD false

def hasBag (b : Board) (c : Coord) : Bool := ((b.get? c).map Tile.bag).getD false

/-- The teleporter on the cell has been used. -/
def isPlaid (b : Board) (c : Coord) : Bool := ((b.get? c).map Tile.plaid).getD false

section
variable {b : Board} {c d : Coord} {f : Tile → Tile}

theorem cellAt_index? {i : Fin boardArea} (h : index? c = some i) : cellAt i = c := by
  obtain ⟨hc, hi⟩ := index?_eq_some.1 h
  rw [Coord.onBoard_iff] at hc
  cases c
  simp only [cellAt, ← hi, boardWidth, Coord.mk.injEq, Int.ofNat_eq_natCast] at hc ⊢
  omega

theorem get?_build {f : Coord → Tile} :
    (build f).get? c = if c.OnBoard then some (f c) else none := by
  cases h : index? c with
  | none =>
    have : ¬ c.OnBoard := by
      intro hc
      simp [index?, hc] at h
    simp [get?, h, this]
  | some i => simp [get?, h, build, (index?_eq_some.1 h).1, cellAt_index? h]

theorem get?_eq_none : b.get? c = none ↔ ¬ c.OnBoard := by
  rw [← Option.isNone_iff_eq_none, ← Option.not_isSome, get?_isSome]
  simp

theorem onBoard_of_get? {t : Tile} (h : b.get? c = some t) : c.OnBoard := by
  apply Decidable.byContradiction
  intro off
  rw [get?_eq_none.2 off] at h
  cases h

theorem onBoard_of_kind? {k : TileKind} (h : b.kind? c = some k) : c.OnBoard := by
  obtain ⟨t, ht, _⟩ := Option.map_eq_some_iff.1 h
  exact onBoard_of_get? ht

theorem onBoard_of_blockOn? {i : Nat} (h : b.blockOn? c = some i) : c.OnBoard := by
  obtain ⟨t, ht, _⟩ := Option.bind_eq_some_iff.1 h
  exact onBoard_of_get? ht

theorem hasKey_empty : empty.hasKey c = false := by
  rw [hasKey, empty, get?_build]
  split <;> rfl

/-! ## One cell is changed -/

theorem map_get?_modify {α : Type} {view : Tile → α} (h : ∀ t, view (f t) = view t) :
    ((b.modify d f).get? c).map view = (b.get? c).map view := by
  rw [get?_modify]
  split
  · rw [Option.map_map]
    exact Option.map_congr fun t _ => h t
  · rfl

theorem kind?_modify (h : ∀ t, (f t).kind = t.kind) : (b.modify d f).kind? c = b.kind? c :=
  map_get?_modify h

theorem hasKey_modify (h : ∀ t, (f t).key = t.key) : (b.modify d f).hasKey c = b.hasKey c :=
  congrArg (·.getD false) (map_get?_modify h)

theorem hasBag_modify (h : ∀ t, (f t).bag = t.bag) : (b.modify d f).hasBag c = b.hasBag c :=
  congrArg (·.getD false) (map_get?_modify h)

theorem isPlaid_modify (h : ∀ t, (f t).plaid = t.plaid) :
    (b.modify d f).isPlaid c = b.isPlaid c :=
  congrArg (·.getD false) (map_get?_modify h)

theorem blockOn?_modify (h : ∀ t, (f t).block = t.block) :
    (b.modify d f).blockOn? c = b.blockOn? c := by
  unfold blockOn?
  rw [get?_modify]
  split
  · cases b.get? c <;> simp [h]
  · rfl

theorem link?_modify (h : ∀ t, (f t).link = t.link) : (b.modify d f).link? c = b.link? c := by
  unfold link?
  rw [get?_modify]
  split
  · cases b.get? c <;> simp [h]
  · rfl

theorem get?_changeTile {k : TileKind} :
    (b.changeTile d k).get? c = if c = d ∧ d.OnBoard then some (.fresh k) else b.get? c := by
  rw [changeTile, get?_modify]
  by_cases h : c = d
  · subst h
    by_cases on : c.OnBoard
    · obtain ⟨t, ht⟩ := Option.isSome_iff_exists.1 (b.get?_isSome.trans (by simpa using on))
      simp [on, ht]
    · simp [on, get?_eq_none.2 on]
  · simp [h]

theorem kind?_changeTile {k : TileKind} :
    (b.changeTile d k).kind? c = if c = d ∧ d.OnBoard then some k else b.kind? c := by
  unfold kind?
  rw [get?_changeTile]
  split <;> rfl

theorem blockOn?_changeTile {k : TileKind} :
    (b.changeTile d k).blockOn? c = if c = d then none else b.blockOn? c := by
  unfold blockOn?
  rw [get?_changeTile]
  by_cases h : c = d
  · subst h
    by_cases on : c.OnBoard
    · simp [on, Tile.fresh]
    · simp [on, get?_eq_none.2 on]
  · simp [h]

/-- A mark is set or cleared on the tile of a cell. -/
theorem mark_modify {mark : Tile → Bool} {x : Bool} (h : ∀ t, mark (f t) = x) :
    (((b.modify d f).get? c).map mark).getD false =
      if c = d then x && decide c.OnBoard else ((b.get? c).map mark).getD false := by
  rw [get?_modify]
  by_cases same : c = d
  · subst same
    cases here : b.get? c with
    | none => simp [get?_eq_none.1 here]
    | some t => simp [onBoard_of_get? here, h]
  · simp [same]

/-- A fresh tile has no mark. -/
theorem mark_changeTile {mark : Tile → Bool} {k : TileKind} (h : mark (.fresh k) = false) :
    (((b.changeTile d k).get? c).map mark).getD false =
      if c = d then false else ((b.get? c).map mark).getD false := by
  rw [changeTile, mark_modify fun _ => h, Bool.false_and]

theorem hasBag_setBag {x : Bool} :
    (b.modify d fun t => { t with bag := x }).hasBag c =
      if c = d then x && decide c.OnBoard else b.hasBag c := mark_modify fun _ => rfl

theorem hasBag_changeTile {k : TileKind} :
    (b.changeTile d k).hasBag c = if c = d then false else b.hasBag c := mark_changeTile rfl

theorem hasKey_setKey {x : Bool} :
    (b.modify d fun t => { t with key := x }).hasKey c =
      if c = d then x && decide c.OnBoard else b.hasKey c := mark_modify fun _ => rfl

theorem hasKey_changeTile {k : TileKind} :
    (b.changeTile d k).hasKey c = if c = d then false else b.hasKey c := mark_changeTile rfl

theorem link?_changeTile {k : TileKind} {e : Coord} (h : (b.changeTile d k).link? c = some e) :
    b.link? c = some e := by
  unfold link? at *
  rw [get?_changeTile] at h
  split at h
  · simp [Tile.fresh] at h
  · exact h

end

/-! ## Many cells are changed -/

/-- What no single change can be seen through, a sequence of changes cannot either. -/
theorem foldl_keeps {α β : Type} {g : Board → α → Board} (view : Board → β)
    (h : ∀ b a, view (g b a) = view b) (as : List α) (b : Board) :
    view (as.foldl g b) = view b := by
  induction as generalizing b with
  | nil => rfl
  | cons a as ih => rw [List.foldl_cons, ih, h]

/-! ## Numbers are written on cells -/

/-- Write block numbers on cells, one after the other. -/
def place (b : Board) (marks : List (Coord × Nat)) : Board :=
  marks.foldl (fun b p => b.modify p.1 fun t => { t with block := some p.2 }) b

theorem kind?_place (b : Board) (marks : List (Coord × Nat)) (c : Coord) :
    (b.place marks).kind? c = b.kind? c := by
  unfold place
  exact foldl_keeps (·.kind? c) (fun b p => kind?_modify (by simp)) marks b

theorem link?_place (b : Board) (marks : List (Coord × Nat)) (c : Coord) :
    (b.place marks).link? c = b.link? c := by
  unfold place
  exact foldl_keeps (·.link? c) (fun b p => link?_modify (by simp)) marks b

theorem hasKey_place (b : Board) (marks : List (Coord × Nat)) (c : Coord) :
    (b.place marks).hasKey c = b.hasKey c := by
  unfold place
  exact foldl_keeps (·.hasKey c) (fun b p => hasKey_modify (by simp)) marks b

theorem hasBag_place (b : Board) (marks : List (Coord × Nat)) (c : Coord) :
    (b.place marks).hasBag c = b.hasBag c := by
  unfold place
  exact foldl_keeps (·.hasBag c) (fun b p => hasBag_modify (by simp)) marks b

theorem isPlaid_place (b : Board) (marks : List (Coord × Nat)) (c : Coord) :
    (b.place marks).isPlaid c = b.isPlaid c := by
  unfold place
  exact foldl_keeps (·.isPlaid c) (fun b p => isPlaid_modify (by simp)) marks b

theorem blockOn?_mark {b : Board} {c d : Coord} {i : Nat} :
    (b.modify d fun t => { t with block := some i }).blockOn? c =
      if c = d ∧ d.OnBoard then some i else b.blockOn? c := by
  unfold blockOn?
  rw [get?_modify]
  by_cases h : c = d
  · subst h
    cases ht : b.get? c with
    | none => simp [get?_eq_none.1 ht]
    | some t => simp [onBoard_of_get? ht]
  · simp [h]

/-- A number on a cell was written there, or it was there before. -/
theorem mem_of_blockOn?_place {marks : List (Coord × Nat)} {b : Board} {c : Coord} {i : Nat}
    (h : (b.place marks).blockOn? c = some i) : (c, i) ∈ marks ∨ b.blockOn? c = some i := by
  induction marks generalizing b with
  | nil => exact .inr h
  | cons m marks ih =>
    rcases ih h with written | before
    · exact .inl (List.mem_cons_of_mem _ written)
    · rw [blockOn?_mark] at before
      split at before
      · rename_i at_m
        cases before
        exact .inl (by simp [at_m.1])
      · exact .inr before

/-- If no cell is written twice, the cells show what was written. -/
theorem blockOn?_place {marks : List (Coord × Nat)} {b : Board} {c : Coord} {i : Nat}
    (once : ∀ c i j, (c, i) ∈ marks → (c, j) ∈ marks → i = j) :
    (b.place marks).blockOn? c = some i ↔
      c.OnBoard ∧ ((c, i) ∈ marks ∨ (∀ j, (c, j) ∉ marks) ∧ b.blockOn? c = some i) := by
  induction marks generalizing b with
  | nil =>
    have : (b.place []).blockOn? c = b.blockOn? c := rfl
    simp only [this, List.not_mem_nil, not_false_eq_true, implies_true, true_and, false_or]
    exact ⟨fun h => ⟨onBoard_of_blockOn? h, h⟩, And.right⟩
  | cons m marks ih =>
    have once' : ∀ c i j, (c, i) ∈ marks → (c, j) ∈ marks → i = j := fun c i j hi hj =>
      once c i j (List.mem_cons_of_mem _ hi) (List.mem_cons_of_mem _ hj)
    rw [show b.place (m :: marks) = (b.modify m.1 fun t => { t with block := some m.2 }).place marks
      from rfl, ih once', blockOn?_mark]
    obtain ⟨d, n⟩ := m
    by_cases hc : c = d
    · subst hc
      have same : ∀ j, (c, j) ∈ marks → j = n := fun j hj =>
        once c j n (List.mem_cons_of_mem _ hj) (List.mem_cons_self ..)
      simp only [true_and, List.mem_cons, Prod.mk.injEq]
      constructor
      · rintro ⟨on, written | ⟨_, shown⟩⟩
        · exact ⟨on, .inl (.inr written)⟩
        · rw [if_pos on] at shown
          exact ⟨on, .inl (.inl (Option.some.inj shown).symm)⟩
      · rintro ⟨on, (rfl | written) | ⟨unwritten, _⟩⟩
        · refine ⟨on, ?_⟩
          by_cases again : (c, i) ∈ marks
          · exact .inl again
          · exact .inr ⟨fun j hj => again (same j hj ▸ hj), by rw [if_pos on]⟩
        · exact ⟨on, .inl written⟩
        · exact absurd (.inl rfl) (unwritten n)
    · simp [hc]

end IceMaze.Board
