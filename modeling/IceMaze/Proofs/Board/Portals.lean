import IceMaze.Proofs.Board.Drawing
import IceMaze.Proofs.Level.Placement

/-!
Teleporters and their partners.

Drawing a level links its teleporters two by two, so that every link leads back and one teleporter
at most has none (`paired_openingBoard`). `SamePortals` is what all changes of a board have in
common that are none of a teleporter, and `Paired.wearOut` is the one that is.
-/

namespace IceMaze.Board

/-- Links join teleporters, and each leads back. -/
structure Coupled (b : Board) : Prop where
  teleporter : ∀ c d, b.link? c = some d → b.kind? c = some .teleporter
  apart : ∀ c d, b.link? c = some d → c ≠ d
  back : ∀ c d, b.link? c = some d → b.link? d = some c

/-- One teleporter at most is left over, and the ends of a pair are used up together. -/
structure Paired (b : Board) : Prop extends Coupled b where
  worn : ∀ c d, b.link? c = some d → b.isPlaid c = b.isPlaid d
  linked : ∀ c, b.isPlaid c = true → ∃ d, b.link? c = some d
  lone : ∀ c d, b.kind? c = some .teleporter → b.link? c = none →
    b.kind? d = some .teleporter → b.link? d = none → c = d

variable {b b' : Board} {c d : Coord}

theorem Coupled.partner (h : b.Coupled) (link : b.link? c = some d) :
    b.kind? d = some .teleporter := h.teleporter d c (h.back c d link)

/-! ## Changes beside the teleporters -/

/-- The boards have the same teleporters, with the same links and the same use. -/
structure SamePortals (b b' : Board) : Prop where
  teleporter : ∀ c, b'.kind? c = some .teleporter ↔ b.kind? c = some .teleporter
  link? : ∀ c, b'.link? c = b.link? c
  isPlaid : ∀ c, b'.isPlaid c = b.isPlaid c

namespace SamePortals

theorem refl (b : Board) : SamePortals b b := ⟨fun _ => .rfl, fun _ => rfl, fun _ => rfl⟩

theorem trans {b'' : Board} (first : SamePortals b b') (second : SamePortals b' b'') :
    SamePortals b b'' where
  teleporter c := (second.teleporter c).trans (first.teleporter c)
  link? c := (second.link? c).trans (first.link? c)
  isPlaid c := (second.isPlaid c).trans (first.isPlaid c)

theorem modify {f : Tile → Tile} (kind : ∀ t, (f t).kind = t.kind)
    (link : ∀ t, (f t).link = t.link) (plaid : ∀ t, (f t).plaid = t.plaid) :
    SamePortals b (b.modify c f) where
  teleporter e := by rw [kind?_modify kind]
  link? e := link?_modify link
  isPlaid e := isPlaid_modify plaid

theorem place (b : Board) (marks : List (Coord × Nat)) : SamePortals b (b.place marks) where
  teleporter e := by rw [kind?_place]
  link? e := link?_place b marks e
  isPlaid e := isPlaid_place b marks e

theorem paired (same : SamePortals b b') (h : b.Paired) : b'.Paired := by
  refine { teleporter := ?_, apart := ?_, back := ?_, worn := ?_, linked := ?_, lone := ?_ }
  · intro c d link
    rw [same.teleporter]
    exact h.teleporter c d (same.link? c ▸ link)
  · intro c d link
    exact h.apart c d (same.link? c ▸ link)
  · intro c d link
    rw [same.link?] at link ⊢
    exact h.back c d link
  · intro c d link
    rw [same.isPlaid, same.isPlaid]
    exact h.worn c d (same.link? c ▸ link)
  · intro c plaid
    rw [same.link?]
    exact h.linked c (same.isPlaid c ▸ plaid)
  · intro c d
    rw [same.teleporter, same.teleporter, same.link?, same.link?]
    exact h.lone c d

end SamePortals

/-- Only a teleporter is linked or used up. -/
theorem Paired.bare (h : b.Paired) (other : b.kind? c ≠ some .teleporter) :
    b.link? c = none ∧ b.isPlaid c = false := by
  have unlinked : b.link? c = none := by
    cases link : b.link? c with
    | none => rfl
    | some d => exact absurd (h.teleporter c d link) other
  refine ⟨unlinked, ?_⟩
  cases plaid : b.isPlaid c with
  | false => rfl
  | true =>
    obtain ⟨d, link⟩ := h.linked c plaid
    cases unlinked.symm.trans link

/-- Tiles change from and to other kinds only. -/
theorem Paired.changeTile (h : b.Paired) {k : TileKind} (other : b.kind? c ≠ some .teleporter)
    (becomes : k ≠ .teleporter) : SamePortals b (b.changeTile c k) := by
  obtain ⟨unlinked, unused⟩ := h.bare other
  have changed (e : Coord) : (b.changeTile c k).get? e = b.get? e ∨
      e = c ∧ (b.changeTile c k).get? e = some (.fresh k) := by
    rw [get?_changeTile]
    split
    · rename_i here
      exact .inr ⟨here.1, rfl⟩
    · exact .inl rfl
  refine ⟨fun e => ?_, fun e => ?_, fun e => ?_⟩
  · unfold kind?
    obtain same | ⟨rfl, fresh⟩ := changed e
    · rw [same]
    · rw [kind?] at other
      simp [fresh, Tile.fresh, becomes, other]
  · obtain same | ⟨rfl, fresh⟩ := changed e
    · rw [Board.link?, same, Board.link?]
    · rw [unlinked, Board.link?, fresh]
      rfl
  · obtain same | ⟨rfl, fresh⟩ := changed e
    · rw [Board.isPlaid, same, Board.isPlaid]
    · rw [unused, Board.isPlaid, fresh]
      rfl

theorem Paired.revealSecret (h : b.Paired) : SamePortals b b.revealSecret := by
  apply List.foldlRecOn _ _ (SamePortals.refl b)
  rintro b' same ⟨c, k⟩ changes
  obtain ⟨j, kind, reveals⟩ := mem_secrets.1 changes
  apply same.trans
  apply (same.paired h).changeTile
  · rw [Ne, same.teleporter, kind]
    rintro ⟨⟩
    cases reveals
  · rintro rfl
    cases j <;> cases reveals

/-! ## A pair is used up -/

/-- The puffle has gone from one cell to the other. -/
def wearOut (b : Board) (c d : Coord) : Board :=
  (b.modify c fun t => { t with plaid := true }).modify d fun t => { t with plaid := true }

theorem isPlaid_setPlaid :
    (b.modify d fun t => { t with plaid := true }).isPlaid c =
      (decide (c = d ∧ d.OnBoard) || b.isPlaid c) := by
  unfold isPlaid
  rw [get?_modify]
  by_cases same : c = d
  · subst same
    cases here : b.get? c with
    | none => simp [get?_eq_none.1 here]
    | some t => simp [onBoard_of_get? here]
  · simp [same]

theorem isPlaid_wearOut {e : Coord} (on_c : c.OnBoard) (on_d : d.OnBoard) :
    (b.wearOut c d).isPlaid e = (decide (e = c ∨ e = d) || b.isPlaid e) := by
  rw [wearOut, isPlaid_setPlaid, isPlaid_setPlaid]
  simp only [on_c, on_d, and_true, Bool.decide_or, Bool.or_assoc, Bool.or_left_comm]

theorem link?_wearOut (e : Coord) : (b.wearOut c d).link? e = b.link? e := by
  rw [wearOut, link?_modify (by simp), link?_modify (by simp)]

theorem kind?_wearOut (e : Coord) : (b.wearOut c d).kind? e = b.kind? e := by
  rw [wearOut, kind?_modify (by simp), kind?_modify (by simp)]

theorem Coupled.onBoard (h : b.Coupled) (link : b.link? c = some d) : c.OnBoard ∧ d.OnBoard :=
  ⟨onBoard_of_kind? (h.teleporter c d link), onBoard_of_kind? (h.partner link)⟩

theorem Paired.wearOut (h : b.Paired) (link : b.link? c = some d) : (b.wearOut c d).Paired := by
  obtain ⟨on_c, on_d⟩ := h.onBoard link
  have back := h.back c d link
  have partners {x y : Coord} (xy : b.link? x = some y) : x = c ∨ x = d ↔ y = c ∨ y = d := by
    have yx := h.back x y xy
    constructor
    · rintro (rfl | rfl)
      · exact .inr (Option.some.inj (xy.symm.trans link))
      · exact .inl (Option.some.inj (xy.symm.trans back))
    · rintro (rfl | rfl)
      · exact .inr (Option.some.inj (yx.symm.trans link))
      · exact .inl (Option.some.inj (yx.symm.trans back))
  refine { teleporter := ?_, apart := ?_, back := ?_, worn := ?_, linked := ?_, lone := ?_ }
  · intro x y
    rw [link?_wearOut, kind?_wearOut]
    exact h.teleporter x y
  · intro x y
    rw [link?_wearOut]
    exact h.apart x y
  · intro x y
    rw [link?_wearOut, link?_wearOut]
    exact h.back x y
  · intro x y xy
    rw [link?_wearOut] at xy
    rw [isPlaid_wearOut on_c on_d, isPlaid_wearOut on_c on_d, h.worn x y xy,
      decide_eq_decide.2 (partners xy)]
  · intro x plaid
    rw [isPlaid_wearOut on_c on_d, Bool.or_eq_true, decide_eq_true_eq] at plaid
    rw [link?_wearOut]
    obtain (rfl | rfl) | before := plaid
    · exact ⟨d, link⟩
    · exact ⟨c, back⟩
    · exact h.linked x before
  · intro x y
    rw [kind?_wearOut, kind?_wearOut, link?_wearOut, link?_wearOut]
    exact h.lone x y

/-! ## The teleporters are joined -/

theorem link?_setLink {e : Coord} :
    (b.modify d fun t => { t with link := some e }).link? c =
      if c = d ∧ d.OnBoard then some e else b.link? c := by
  unfold link?
  rw [get?_modify]
  by_cases same : c = d
  · subst same
    cases here : b.get? c with
    | none => simp [get?_eq_none.1 here]
    | some t => simp [onBoard_of_get? here]
  · simp [same]

theorem link?_linkPair (on_c : c.OnBoard) (on_d : d.OnBoard) (e : Coord) :
    (b.linkPair (c, d)).link? e =
      if e = d then some c else if e = c then some d else b.link? e := by
  rw [linkPair, link?_setLink, link?_setLink]
  simp only [on_c, on_d, and_true]

theorem kind?_linkPair (p : Coord × Coord) (e : Coord) : (b.linkPair p).kind? e = b.kind? e := by
  rw [linkPair, kind?_modify (by simp), kind?_modify (by simp)]

theorem Coupled.linkPair (h : b.Coupled) (tele_c : b.kind? c = some .teleporter)
    (tele_d : b.kind? d = some .teleporter) (distinct : c ≠ d) (bare_c : b.link? c = none)
    (bare_d : b.link? d = none) : (b.linkPair (c, d)).Coupled := by
  have link := link?_linkPair (b := b) (onBoard_of_kind? tele_c) (onBoard_of_kind? tele_d)
  have cases_link {x y : Coord} (xy : (b.linkPair (c, d)).link? x = some y) :
      x = d ∧ y = c ∨ x = c ∧ y = d ∨ x ≠ c ∧ x ≠ d ∧ b.link? x = some y := by
    rw [link] at xy
    by_cases at_d : x = d
    · rw [if_pos at_d] at xy
      exact .inl ⟨at_d, (Option.some.inj xy).symm⟩
    · rw [if_neg at_d] at xy
      by_cases at_c : x = c
      · rw [if_pos at_c] at xy
        exact .inr (.inl ⟨at_c, (Option.some.inj xy).symm⟩)
      · rw [if_neg at_c] at xy
        exact .inr (.inr ⟨at_c, at_d, xy⟩)
  refine ⟨fun x y xy => ?_, fun x y xy => ?_, fun x y xy => ?_⟩
  · rw [kind?_linkPair]
    obtain ⟨rfl, rfl⟩ | ⟨rfl, rfl⟩ | ⟨_, _, before⟩ := cases_link xy
    · exact tele_d
    · exact tele_c
    · exact h.teleporter x y before
  · obtain ⟨rfl, rfl⟩ | ⟨rfl, rfl⟩ | ⟨_, _, before⟩ := cases_link xy
    · exact distinct.symm
    · exact distinct
    · exact h.apart x y before
  · obtain ⟨rfl, rfl⟩ | ⟨rfl, rfl⟩ | ⟨_, _, before⟩ := cases_link xy
    · rw [link, if_neg distinct, if_pos rfl]
    · rw [link, if_pos rfl]
    · have back := h.back x y before
      have not_c : y ≠ c := by
        rintro rfl
        cases bare_c.symm.trans back
      have not_d : y ≠ d := by
        rintro rfl
        cases bare_d.symm.trans back
      rw [link, if_neg not_d, if_neg not_c]
      exact back

/-- Cells that are not linked yet are joined two by two, with one at most left over. -/
theorem Coupled.linkPairs {ts : List Coord} (h : b.Coupled) (nodup : ts.Nodup)
    (teleporters : ∀ c ∈ ts, b.kind? c = some .teleporter) (bare : ∀ c ∈ ts, b.link? c = none) :
    ((pairs ts).foldl Board.linkPair b).Coupled ∧
      (∀ c, c ∉ ts → ((pairs ts).foldl Board.linkPair b).link? c = b.link? c) ∧
      ∀ c ∈ ts, ∀ d ∈ ts, ((pairs ts).foldl Board.linkPair b).link? c = none →
        ((pairs ts).foldl Board.linkPair b).link? d = none → c = d := by
  induction ts using pairs.induct generalizing b with
  | case1 x y rest ih =>
    simp only [List.nodup_cons, List.mem_cons, not_or] at nodup
    obtain ⟨⟨distinct, x_gone⟩, y_gone, nodup⟩ := nodup
    have tele_x := teleporters x (by simp)
    have tele_y := teleporters y (by simp)
    have link := link?_linkPair (b := b) (onBoard_of_kind? tele_x) (onBoard_of_kind? tele_y)
    have away {c : Coord} (hc : c ∈ rest) : c ≠ x ∧ c ≠ y :=
      ⟨ne_of_mem_of_not_mem hc x_gone, ne_of_mem_of_not_mem hc y_gone⟩
    have joined := h.linkPair tele_x tele_y distinct (bare x (by simp)) (bare y (by simp))
    obtain ⟨coupled, others, lone⟩ := ih joined nodup
      (fun c hc => (kind?_linkPair (x, y) c).trans (teleporters c (by simp [hc])))
      (fun c hc => by
        rw [link, if_neg (away hc).2, if_neg (away hc).1]
        exact bare c (by simp [hc]))
    rw [pairs, List.foldl_cons]
    have linked_x := others x x_gone
    rw [link, if_neg distinct, if_pos rfl] at linked_x
    have linked_y := others y y_gone
    rw [link, if_pos rfl] at linked_y
    have left_over {c : Coord} (hc : c ∈ x :: y :: rest)
        (unlinked : ((pairs rest).foldl Board.linkPair (b.linkPair (x, y))).link? c = none) :
        c ∈ rest := by
      simp only [List.mem_cons] at hc
      obtain rfl | rfl | hc := hc
      · cases linked_x.symm.trans unlinked
      · cases linked_y.symm.trans unlinked
      · exact hc
    refine ⟨coupled, fun c hc => ?_, fun c hc d hd bare_c bare_d => ?_⟩
    · simp only [List.mem_cons, not_or] at hc
      rw [others c hc.2.2, link, if_neg hc.2.1, if_neg hc.1]
    · exact lone c (left_over hc bare_c) d (left_over hd bare_d) bare_c bare_d
  | case2 ts short =>
    have none_left : pairs ts = [] := by
      rw [pairs]
      exact short
    rw [none_left]
    refine ⟨h, fun _ _ => rfl, fun c hc d hd _ _ => ?_⟩
    cases ts with
    | nil => cases hc
    | cons x ts =>
      cases ts with
      | nil => rw [List.mem_singleton.1 hc, List.mem_singleton.1 hd]
      | cons y rest => exact absurd rfl (short x y rest)

/-! ## The start of a level -/

theorem mem_teleporters {l : Level} :
    c ∈ teleporters l ↔ c.OnBoard ∧ l.tileAt c = .teleporter := by
  rw [teleporters, List.mem_filter, mem_boardCells, decide_eq_true_eq]

theorem kind?_draw_eq_teleporter {l : Level} :
    (draw l).kind? c = some .teleporter ↔ c ∈ teleporters l := by
  rw [kind?_draw, mem_teleporters]
  by_cases on : c.OnBoard <;> simp [on]

theorem paired_draw (l : Level) : (draw l).Paired := by
  let bare := build fun c => .fresh (l.tileAt c)
  let joined := (pairs (teleporters l)).foldl linkPair bare
  have unlinked : ∀ c, bare.link? c = none := by
    intro c
    rw [Board.link?, get?_build]
    split <;> rfl
  have kind (c : Coord) : bare.kind? c = (draw l).kind? c := by
    rw [kind?_draw, Board.kind?, get?_build]
    split <;> rfl
  have bare_coupled : bare.Coupled := by
    constructor <;> intro c d link <;> cases (unlinked c).symm.trans link
  obtain ⟨coupled, _, lone⟩ := bare_coupled.linkPairs (nodup_boardCells.filter _)
    (fun c hc => (kind c).trans (kind?_draw_eq_teleporter.2 hc)) fun c _ => unlinked c
  have link (c : Coord) : (draw l).link? c = joined.link? c := by
    have placeKey (b : Board) (d : Coord) : (b.placeKey d).link? c = b.link? c :=
      link?_modify fun _ => rfl
    exact foldl_keeps (·.link? c) placeKey l.keys joined
  have joined_kind (c : Coord) : joined.kind? c = (draw l).kind? c :=
    (foldl_keeps (·.kind? c) (fun _ p => kind?_linkPair p c) _ bare).trans (kind c)
  refine { teleporter := ?_, apart := ?_, back := ?_, worn := ?_, linked := ?_, lone := ?_ }
  · intro c d
    rw [link, ← joined_kind]
    exact coupled.teleporter c d
  · intro c d
    rw [link]
    exact coupled.apart c d
  · intro c d
    rw [link, link]
    exact coupled.back c d
  · intro c d _
    rw [isPlaid_draw, isPlaid_draw]
  · intro c plaid
    cases isPlaid_draw.symm.trans plaid
  · intro c d tele_c bare_c tele_d bare_d
    rw [link] at bare_c bare_d
    rw [kind?_draw_eq_teleporter] at tele_c tele_d
    exact lone c tele_c d tele_d bare_c bare_d

end Board

namespace Game

open Board

theorem samePortals_openingBoard (l : Level) (earned : Bool) :
    SamePortals (draw l) (openingBoard l earned) := by
  obtain ⟨bag, board⟩ := openingBoard_eq l earned
  rw [board]
  have placed := SamePortals.place (draw l) l.blocks.zipIdx
  cases bag with
  | none => exact placed
  | some c => exact placed.trans (.modify (by simp) (by simp) (by simp))

theorem paired_openingBoard (l : Level) (earned : Bool) : (openingBoard l earned).Paired :=
  (samePortals_openingBoard l earned).paired (paired_draw l)

theorem isPlaid_openingBoard (l : Level) (earned : Bool) (c : Coord) :
    (openingBoard l earned).isPlaid c = false :=
  ((samePortals_openingBoard l earned).isPlaid c).trans isPlaid_draw

end IceMaze.Game
