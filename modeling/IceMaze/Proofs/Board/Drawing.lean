import IceMaze.Game.Loading
import IceMaze.Proofs.Board.Cells

/-!
What the board of a level shows at its start, and what the secret makes of a board.

`kind?_openingBoard`, `blockOn?_openingBoard` and `linksStay_openingBoard` look at the board of a
level; `kind?_revealSecret` and `blockOn?_revealSecret` at a board whose secret has been revealed.
-/

namespace IceMaze.Board

/-! ## Links -/

/-- Every teleporter leads to a cell of the board. -/
def LinksStay (b : Board) : Prop := ∀ c d, b.link? c = some d → d.OnBoard

theorem LinksStay.modify {b : Board} {c : Coord} {f : Tile → Tile} (h : b.LinksStay)
    (hf : ∀ t, (f t).link = t.link) : (b.modify c f).LinksStay := by
  intro x y hxy
  rw [link?_modify hf] at hxy
  exact h x y hxy

theorem LinksStay.changeTile {b : Board} {c : Coord} {k : TileKind} (h : b.LinksStay) :
    (b.changeTile c k).LinksStay := fun x y hxy => h x y (link?_changeTile hxy)

theorem LinksStay.setLink {b : Board} {c d : Coord} (h : b.LinksStay) (hd : d.OnBoard) :
    (b.modify c fun t => { t with link := some d }).LinksStay := by
  intro x y hxy
  unfold link? at hxy
  rw [get?_modify] at hxy
  split at hxy
  · cases ht : b.get? x with
    | none => simp [ht] at hxy
    | some t =>
      simp only [ht, Option.map_some, Option.bind_some, Option.some.injEq] at hxy
      exact hxy ▸ hd
  · exact h x y hxy

theorem mem_of_mem_pairs {α : Type} {p : α × α} {as : List α} (h : p ∈ pairs as) :
    p.1 ∈ as ∧ p.2 ∈ as := by
  induction as using pairs.induct with
  | case1 a b rest ih =>
    rw [pairs, List.mem_cons] at h
    rcases h with rfl | h
    · simp
    · simp [ih h]
  | case2 as _ => simp [pairs] at h

/-! ## The start of a level -/

/-- What neither links nor keys can be seen through shows the bare tiles of the level. -/
theorem view_draw {β : Type} (view : Board → β)
    (link : ∀ b c d, view (b.modify c fun t => { t with link := some d }) = view b)
    (key : ∀ b c, view (b.modify c fun t => { t with key := true }) = view b) (l : Level) :
    view (draw l) = view (build fun c => .fresh (l.tileAt c)) := by
  have linkPair (b : Board) (p : Coord × Coord) : view (b.linkPair p) = view b := by
    rw [Board.linkPair, link, link]
  have placeKey (b : Board) (c : Coord) : view (b.placeKey c) = view b := key b c
  rw [draw, foldl_keeps view placeKey, foldl_keeps view linkPair]

theorem kind?_draw {l : Level} {c : Coord} :
    (draw l).kind? c = if c.OnBoard then some (l.tileAt c) else none := by
  rw [view_draw (·.kind? c) (fun _ _ _ => kind?_modify fun _ => rfl)
    (fun _ _ => kind?_modify fun _ => rfl), kind?, get?_build]
  split <;> rfl

theorem blockOn?_draw {l : Level} {c : Coord} : (draw l).blockOn? c = none := by
  rw [view_draw (·.blockOn? c) (fun _ _ _ => blockOn?_modify fun _ => rfl)
    (fun _ _ => blockOn?_modify fun _ => rfl), blockOn?, get?_build]
  split <;> rfl

theorem hasBag_draw {l : Level} {c : Coord} : (draw l).hasBag c = false := by
  rw [view_draw (·.hasBag c) (fun _ _ _ => hasBag_modify fun _ => rfl)
    (fun _ _ => hasBag_modify fun _ => rfl), hasBag, get?_build]
  split <;> rfl

theorem isPlaid_draw {l : Level} {c : Coord} : (draw l).isPlaid c = false := by
  rw [view_draw (·.isPlaid c) (fun _ _ _ => isPlaid_modify fun _ => rfl)
    (fun _ _ => isPlaid_modify fun _ => rfl), isPlaid, get?_build]
  split <;> rfl

/-- The keys of a level, each cell that has one once. -/
theorem hasKey_draw {l : Level} {c : Coord} :
    (draw l).hasKey c = true ↔ c.OnBoard ∧ c ∈ l.keys := by
  have bare : ((pairs (teleporters l)).foldl linkPair
      (build fun c => .fresh (l.tileAt c))).hasKey c = false := by
    have linkPair (b : Board) (p : Coord × Coord) : (b.linkPair p).hasKey c = b.hasKey c := by
      rw [Board.linkPair, hasKey_modify (by simp), hasKey_modify (by simp)]
    rw [foldl_keeps (·.hasKey c) linkPair, hasKey, get?_build]
    split <;> rfl
  have placed (cs : List Coord) (b : Board) :
      (cs.foldl placeKey b).hasKey c = true ↔ c.OnBoard ∧ c ∈ cs ∨ b.hasKey c = true := by
    induction cs generalizing b with
    | nil => simp
    | cons d cs ih =>
      rw [List.foldl_cons, ih, placeKey, hasKey_setKey]
      by_cases same : c = d
      · subst same
        by_cases on : c.OnBoard
        · simp [on]
        · simp [on, hasKey, get?_eq_none.2 on]
      · simp [same]
  rw [draw, placed, bare]
  simp

theorem linksStay_draw (l : Level) : (draw l).LinksStay := by
  have bare : (build fun c => .fresh (l.tileAt c)).LinksStay := by
    intro c d h
    rw [link?, get?_build] at h
    split at h <;> simp [Tile.fresh] at h
  have onBoard : ∀ c ∈ teleporters l, c.OnBoard := fun c hc =>
    mem_boardCells.1 (List.mem_filter.1 hc).1
  have linked : ((pairs (teleporters l)).foldl linkPair
      (build fun c => .fresh (l.tileAt c))).LinksStay := by
    apply List.foldlRecOn _ _ bare
    intro b h p hp
    obtain ⟨h₁, h₂⟩ := mem_of_mem_pairs hp
    exact (h.setLink (onBoard _ h₂)).setLink (onBoard _ h₁)
  exact List.foldlRecOn _ _ linked fun b h c _ => h.modify fun _ => rfl

end Board

namespace Game

open Board

theorem openingBoard_eq (l : Level) (earned : Bool) :
    ∃ bag : Option Coord, openingBoard l earned =
      match bag with
      | some c => ((draw l).place l.blocks.zipIdx).modify c fun t => { t with bag := true }
      | none => (draw l).place l.blocks.zipIdx :=
  ⟨if earned then l.bag else none, rfl⟩

/-- The blocks of a level are on its first board where the level has them; all else that the board
shows is drawn. -/
theorem view_openingBoard {β : Type} (view : Board → β)
    (h : ∀ b c, view (b.modify c fun t => { t with bag := true }) = view b) (l : Level)
    (earned : Bool) :
    view (openingBoard l earned) = view ((draw l).place l.blocks.zipIdx) := by
  obtain ⟨bag, hbag⟩ := openingBoard_eq l earned
  rw [hbag]
  cases bag with
  | none => rfl
  | some c => exact h _ c

theorem kind?_openingBoard {l : Level} {earned : Bool} {c : Coord} :
    (openingBoard l earned).kind? c = if c.OnBoard then some (l.tileAt c) else none := by
  rw [view_openingBoard (·.kind? c) fun _ _ => kind?_modify fun _ => rfl, kind?_place, kind?_draw]

theorem blockOn?_openingBoard {l : Level} {earned : Bool} {c : Coord} {i : Nat}
    (distinct : l.blocks.Nodup) :
    (openingBoard l earned).blockOn? c = some i ↔ c.OnBoard ∧ l.blocks[i]? = some c := by
  rw [view_openingBoard (·.blockOn? c) fun _ _ => blockOn?_modify fun _ => rfl, blockOn?_place]
  · simp only [List.mem_zipIdx_iff_getElem?, blockOn?_draw, reduceCtorEq, and_false, or_false]
  · intro c i j hi hj
    rw [List.mem_zipIdx_iff_getElem?] at hi hj
    exact (List.getElem?_inj (List.getElem?_eq_some_iff.1 hi).1 distinct).1 (hi.trans hj.symm)

theorem lt_of_blockOn?_openingBoard {l : Level} {earned : Bool} {c : Coord} {i : Nat}
    (h : (openingBoard l earned).blockOn? c = some i) : i < l.blocks.length := by
  rw [view_openingBoard (·.blockOn? c) fun _ _ => blockOn?_modify fun _ => rfl] at h
  rcases mem_of_blockOn?_place h with written | before
  · exact (List.getElem?_eq_some_iff.1 (List.mem_zipIdx_iff_getElem?.1 written)).1
  · rw [blockOn?_draw] at before
    cases before

/-- A bag on the first board is that of the level, and it is earned. -/
theorem bag_of_hasBag_openingBoard {l : Level} {earned : Bool} {c : Coord}
    (h : (openingBoard l earned).hasBag c = true) : earned = true ∧ l.bag = some c := by
  have bare : ((draw l).place l.blocks.zipIdx).hasBag c = false := by
    rw [hasBag_place, hasBag_draw]
  have board : openingBoard l earned =
      match if earned then l.bag else none with
      | some d => ((draw l).place l.blocks.zipIdx).modify d fun t => { t with bag := true }
      | none => (draw l).place l.blocks.zipIdx := rfl
  rw [board] at h
  split at h
  · rename_i d placed
    rw [hasBag_setBag] at h
    split at h
    · rename_i same
      subst same
      split at placed
      · rename_i won
        exact ⟨won, placed⟩
      · cases placed
    · rw [bare] at h
      cases h
  · rw [bare] at h
    cases h

theorem hasKey_openingBoard {l : Level} {earned : Bool} {c : Coord} :
    (openingBoard l earned).hasKey c = true ↔ c.OnBoard ∧ c ∈ l.keys := by
  rw [view_openingBoard (·.hasKey c) fun _ _ => hasKey_modify fun _ => rfl, hasKey_place,
    hasKey_draw]

theorem linksStay_openingBoard (l : Level) (earned : Bool) : (openingBoard l earned).LinksStay := by
  intro c d h
  rw [view_openingBoard (·.link? c) fun _ _ => link?_modify fun _ => rfl, link?_place] at h
  exact linksStay_draw l c d h

end Game

/-! ## The secret -/

namespace Board

theorem mem_secrets {b : Board} {c : Coord} {k : TileKind} :
    (c, k) ∈ b.secrets ↔ ∃ j, b.kind? c = some j ∧ revealed? j = some k := by
  simp only [secrets, List.mem_filterMap, Option.map_eq_some_iff, Option.bind_eq_some_iff,
    Prod.mk.injEq]
  constructor
  · rintro ⟨_, _, _, ⟨j, hj, hk⟩, rfl, rfl⟩
    exact ⟨j, hj, hk⟩
  · rintro ⟨j, hj, hk⟩
    exact ⟨c, mem_boardCells.2 (onBoard_of_kind? hj), k, ⟨j, hj, hk⟩, rfl, rfl⟩

/-- Change some tiles, each to a kind that depends on its cell alone. -/
theorem get?_repaint {changes : List (Coord × TileKind)} {r : Coord → TileKind}
    (h : ∀ p ∈ changes, p.2 = r p.1) (b : Board) (c : Coord) :
    (changes.foldl (fun b p => b.changeTile p.1 p.2) b).get? c =
      if c.OnBoard ∧ c ∈ changes.map Prod.fst then some (.fresh (r c)) else b.get? c := by
  induction changes generalizing b with
  | nil => simp
  | cons p changes ih =>
    rw [List.foldl_cons, ih fun q hq => h q (List.mem_cons_of_mem _ hq), get?_changeTile,
      h p List.mem_cons_self]
    by_cases hc : c = p.1
    · subst hc
      by_cases on : p.1.OnBoard <;> simp [on]
    · simp only [hc, false_and, if_false, List.map_cons, List.mem_cons, false_or]

theorem get?_revealSecret (b : Board) (c : Coord) :
    b.revealSecret.get? c =
      match (b.kind? c).bind revealed? with
      | some k => some (.fresh k)
      | none => b.get? c := by
  have new : ∀ p ∈ b.secrets, p.2 = ((b.kind? p.1).bind revealed?).getD .empty := by
    rintro ⟨d, k⟩ hp
    obtain ⟨j, hj, hk⟩ := mem_secrets.1 hp
    simp [hj, hk]
  rw [revealSecret, get?_repaint (r := fun d => ((b.kind? d).bind revealed?).getD .empty) new]
  cases h : (b.kind? c).bind revealed? with
  | none =>
    rw [if_neg]
    rintro ⟨_, hc⟩
    obtain ⟨⟨_, k⟩, hp, rfl⟩ := List.mem_map.1 hc
    obtain ⟨j, hj, hk⟩ := mem_secrets.1 hp
    simp [hj, hk] at h
  | some k =>
    obtain ⟨j, hj, hk⟩ := Option.bind_eq_some_iff.1 h
    rw [if_pos ⟨onBoard_of_kind? hj, List.mem_map.2 ⟨(c, k), mem_secrets.2 ⟨j, hj, hk⟩, rfl⟩⟩]
    rfl

theorem kind?_revealSecret (b : Board) (c : Coord) :
    b.revealSecret.kind? c = (b.kind? c).map fun k => (revealed? k).getD k := by
  rw [kind?, get?_revealSecret]
  cases h : b.kind? c with
  | none => simpa [kind?] using h
  | some j =>
    cases hk : revealed? j with
    | none => simpa [kind?, hk] using h
    | some k => simp [hk, Tile.fresh]

theorem blockOn?_revealSecret (b : Board) (c : Coord) :
    b.revealSecret.blockOn? c = if c ∈ b.secrets.map Prod.fst then none else b.blockOn? c := by
  have mem : c ∈ b.secrets.map Prod.fst ↔ ((b.kind? c).bind revealed?).isSome := by
    simp only [List.mem_map, Prod.exists, mem_secrets, Option.isSome_iff_exists,
      Option.bind_eq_some_iff]
    constructor
    · rintro ⟨_, k, h, rfl⟩
      exact ⟨k, h⟩
    · rintro ⟨k, h⟩
      exact ⟨c, k, h, rfl⟩
  rw [blockOn?, get?_revealSecret]
  cases h : (b.kind? c).bind revealed? with
  | none => simp [mem, h, blockOn?]
  | some k => simp [mem, h, Tile.fresh]

theorem hasBag_of_revealSecret {b : Board} {c : Coord} (h : b.revealSecret.hasBag c = true) :
    b.hasBag c = true := by
  rw [hasBag, get?_revealSecret] at h
  split at h
  · cases h
  · exact h

theorem hasKey_revealSecret (b : Board) (c : Coord) :
    b.revealSecret.hasKey c = if ((b.kind? c).bind revealed?).isSome then false else b.hasKey c := by
  rw [hasKey, get?_revealSecret]
  cases (b.kind? c).bind revealed? with
  | none => rfl
  | some k => rfl

theorem LinksStay.revealSecret {b : Board} (h : b.LinksStay) : b.revealSecret.LinksStay :=
  List.foldlRecOn _ _ h fun _ hb _ _ => hb.changeTile

end IceMaze.Board
