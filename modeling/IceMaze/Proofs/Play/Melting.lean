import IceMaze.Proofs.Level.Acceptance
import IceMaze.Proofs.Play.Redrawing

/-!
What has melted, and what can still melt.

`Conserves` weighs the melts that an operation tells against the tiles that it changes. Every
operation conserves (`Operation.conserves`), so since the last opening of the level the melts of
each cell make up for what its tile has lost (`Melting`).
-/

namespace IceMaze

namespace Event

def isMelt : Event → Bool
  | .tileMelted _ => true
  | _ => false

end Event

/-- The number of melts that a cell still has in it. -/
def Board.meltValue (b : Board) (c : Coord) : Nat := ((b.kind? c).map TileKind.meltValue).getD 0

namespace Game

open Board Event

variable {g g' : Game}

/-- Each melt that `es` tells of takes one from its cell and is counted, and nothing else changes
what can melt. -/
structure Conserves (es : List Event) (g g' : Game) : Prop where
  keeps : ∀ e ∈ es, e.opensLevel = false
  cells : ∀ c, es.count (.tileMelted c) + g'.board.meltValue c = g.board.meltValue c
  melted : g'.melted = g.melted + es.countP isMelt

namespace Conserves

/-- Events that tell of no melt and no opening go with any change that keeps the melt values. -/
theorem of_silent {es : List Event} (silent : ∀ e ∈ es, e.opensLevel = false ∧ e.isMelt = false)
    (cells : ∀ c, g'.board.meltValue c = g.board.meltValue c) (melted : g'.melted = g.melted) :
    Conserves es g g' where
  keeps e he := (silent e he).1
  cells c := by
    have none_here : es.count (.tileMelted c) = 0 :=
      List.count_eq_zero.2 fun melts => by simpa [isMelt] using (silent _ melts).2
    rw [none_here, cells, Nat.zero_add]
  melted := by
    have none_at_all : es.countP isMelt = 0 :=
      List.countP_eq_zero.2 fun e he => by simp [(silent e he).2]
    rw [none_at_all, melted, Nat.add_zero]

end Conserves

theorem meltValue_congr {b b' : Board} {c : Coord} (kind : b'.kind? c = b.kind? c) :
    b'.meltValue c = b.meltValue c := by
  rw [meltValue, kind, meltValue]

theorem SameGround.conserves (same : g.SameGround g') {es : List Event}
    (silent : ∀ e ∈ es, e.opensLevel = false ∧ e.isMelt = false) : Conserves es g g' :=
  .of_silent silent (fun c => meltValue_congr (same.kind? c)) same.melted

/-! ## Operations -/

theorem meltValue_of_melt? {j k : TileKind} (h : melt? j = some k) :
    1 + k.meltValue = j.meltValue := by
  cases j <;> cases h <;> rfl

theorem meltValue_of_revealed? (k : TileKind) :
    ((revealed? k).getD k).meltValue = k.meltValue := by
  cases k <;> rfl

theorem conserves_leave (c : Coord) : Conserves (g.leaveEvents c) g (g.leave c) := by
  unfold leaveEvents
  cases melts : (g.board.kind? c).bind melt? with
  | none =>
    have stays : g.leave c = g := by simp [leave, melts]
    rw [stays]
    exact .of_silent nofun (fun _ => rfl) rfl
  | some k =>
    obtain ⟨j, kind, melts_to⟩ := Option.bind_eq_some_iff.1 melts
    refine ⟨by simp [opensLevel], fun d => ?_, by simp [melted_leave, melts, isMelt]⟩
    rw [meltValue, meltValue, kind?_leave]
    by_cases same : d = c
    · subst same
      simp [kind, melts_to, meltValue_of_melt? melts_to]
    · simp [same, Ne.symm same]

theorem conserves_pushBlock (i : Nat) (d : Direction) :
    Conserves (g.pushEvents i d) g (g.pushBlock i d) := by
  refine .of_silent ?_ (fun c => meltValue_congr (kind?_pushBlock d c)) (melted_pushBlock d)
  unfold pushEvents
  split <;> simp [opensLevel, isMelt]

theorem conserves_pressButton : Conserves g.pressEvents g g.pressButton := by
  refine .of_silent ?_ (fun c => ?_) melted_pressButton
  · exact g.forall_mem_pressEvents (fun _ _ => ⟨rfl, rfl⟩) fun _ => ⟨rfl, rfl⟩
  · rw [meltValue, kind?_pressButton, Option.map_map, meltValue]
    exact congrArg (·.getD 0) (Option.map_congr fun k _ => meltValue_of_revealed? k)

theorem conserves_landBlock (i : Nat) (b : Block) (m : Motion) :
    Conserves (g.landEvents i b m) g (g.landBlock i b m) := by
  refine .of_silent ?_ (fun c => meltValue_congr (kind?_landBlock c)) melted_landBlock
  unfold landEvents
  split <;> simp [opensLevel, isMelt]

theorem conserves_takeBag (c : Coord) : Conserves (g.bagEvents c) g (g.takeBag c) := by
  refine (SameGround.takeBag c).conserves ?_
  unfold bagEvents
  split <;> simp [opensLevel, isMelt]

theorem conserves_takeKey (c : Coord) : Conserves (g.keyEvents c) g (g.takeKey c) := by
  refine (SameGround.takeKey c).conserves ?_
  unfold keyEvents
  split <;> simp [opensLevel, isMelt]

/-- A lock and the ice that it turns into melt once each. -/
theorem conserves_openLock {c : Coord} (lock : g.board.kind? c = some .lock) :
    Conserves [.tileChanged c .ice, .keyUsed c] g (g.openLock c) := by
  refine .of_silent (by simp [opensLevel, isMelt]) (fun d => ?_) rfl
  rw [board_openLock, meltValue, kind?_changeTile, meltValue]
  by_cases same : d = c
  · subst same
    simp [onBoard_of_kind? lock, lock, TileKind.meltValue]
  · simp [same]

theorem Operation.conserves {es : List Event} (op : Operation g es g') : Conserves es g g' := by
  cases op with
  | still _ board melted => exact .of_silent nofun (fun _ => by rw [board]) melted
  | leave c => exact conserves_leave c
  | pushBlock i d => exact conserves_pushBlock i d
  | pressButton => exact conserves_pressButton
  | landBlock i b m => exact conserves_landBlock i b m
  | takeBag c => exact conserves_takeBag c
  | takeKey c => exact conserves_takeKey c
  | openLock lock => exact conserves_openLock lock
  | teleport => exact (SameGround.teleport _ _).conserves (by simp [opensLevel, isMelt])

/-! ## Since the level was opened -/

theorem onBoard_of_meltValue_pos {b : Board} {c : Coord} (h : 0 < b.meltValue c) : c.OnBoard := by
  unfold meltValue at h
  cases kind : b.kind? c with
  | none => simp [kind] at h
  | some k => exact onBoard_of_kind? kind

/-- The melts since the opening of the level are those that the tiles have lost. -/
structure Melting (log : List Event) (g : Game) : Prop where
  cells : ∀ l, g.layout = some l → ∀ c, c.OnBoard →
    (sinceOpening log).count (.tileMelted c) + g.board.meltValue c = (l.tileAt c).meltValue
  melted : g.melted = (sinceOpening log).countP isMelt
  inside : ∀ c, .tileMelted c ∈ sinceOpening log → c.OnBoard

theorem Melting.conserves {log es : List Event} (h : Melting log g) (conserves : Conserves es g g')
    (layout : g'.layout = g.layout) : Melting (log ++ es) g' := by
  have added := sinceOpening_append log conserves.keeps
  refine ⟨fun l hl c on => ?_, ?_, fun c melts => ?_⟩
  · rw [added, List.count_append, Nat.add_assoc, conserves.cells]
    exact h.cells l (layout ▸ hl) c on
  · rw [added, List.countP_append, conserves.melted, h.melted]
  · rw [added, List.mem_append] at melts
    rcases melts with before | now
    · exact h.inside c before
    · have counted := List.count_pos_iff.2 now
      have weighed := conserves.cells c
      exact onBoard_of_meltValue_pos (b := g.board) (by omega)

theorem melting_of_drawn {l : Level} (drawn : g.drawing = l.drawing g.solvedPrevious)
    (layout : g.layout = some l) {log : List Event} {e : Event} (opens : e.opensLevel = true) :
    Melting (log ++ [e]) g := by
  have melted : g.melted = 0 := congrArg Drawing.melted drawn
  refine ⟨fun l' hl' c on => ?_, ?_, fun c melts => ?_⟩
  · cases layout.symm.trans hl'
    simp [sinceOpening_concat opens, meltValue, board_of_drawn drawn, kind?_openingBoard, on]
  · simp [sinceOpening_concat opens, melted]
  · simp [sinceOpening_concat opens] at melts

/-! ## The whole board -/

/-- Events that each name a cell of the board, counted cell by cell. -/
theorem sum_count_boardCells {tell : Coord → Event} (apart : Function.Injective tell)
    {p : Event → Bool} (tells : ∀ e, p e = true ↔ ∃ c, e = tell c) {es : List Event}
    (inside : ∀ c, tell c ∈ es → c.OnBoard) :
    (boardCells.map fun c => es.count (tell c)).sum = es.countP p := by
  induction es with
  | nil => simp
  | cons e es ih =>
    have rest := ih fun c hc => inside c (List.mem_cons_of_mem _ hc)
    have first : (∑ c ∈ boardCells.toFinset, if e = tell c then 1 else 0) =
        if p e then 1 else 0 := by
      by_cases counted : p e = true
      · obtain ⟨d, rfl⟩ := (tells e).1 counted
        have on : d ∈ boardCells.toFinset :=
          List.mem_toFinset.2 (mem_boardCells.2 (inside d List.mem_cons_self))
        simp [counted, apart.eq_iff, Finset.sum_ite_eq, on]
      · have other (c : Coord) : e ≠ tell c := fun same => counted ((tells e).2 ⟨c, same⟩)
        simp [counted, other]
    rw [sum_boardCells] at rest ⊢
    simp only [List.count_cons, List.countP_cons, Finset.sum_add_distrib, rest, beq_iff_eq, first]

theorem Melting.sum {log : List Event} {l : Level} (h : Melting log g)
    (layout : g.layout = some l) :
    g.melted + (boardCells.map g.board.meltValue).sum =
      (boardCells.map fun c => (l.tileAt c).meltValue).sum := by
  have cells : ∀ c ∈ boardCells, (l.tileAt c).meltValue =
      (sinceOpening log).count (.tileMelted c) + g.board.meltValue c :=
    fun c hc => (h.cells l layout c (mem_boardCells.1 hc)).symm
  have melts (e : Event) : e.isMelt = true ↔ ∃ c, e = .tileMelted c := by
    cases e <;> simp [isMelt]
  have apart : Function.Injective Event.tileMelted := fun _ _ same => Event.tileMelted.inj same
  rw [h.melted, ← sum_count_boardCells apart melts h.inside, List.map_congr_left cells,
    List.sum_map_add]

end Game

section
variable {levels : List Level} {rules : Rules} {seed : UInt64} {g₀ : Game} {r : Run}

theorem Run.Reachable.melting (new : Game.new levels rules seed = .ok g₀)
    (h : Run.Reachable g₀ r) : Game.Melting r.events r.game := by
  have unstarted := Game.unstarted_of_new new
  apply h.by_operations new
  · refine ⟨fun l hl => ?_, unstarted.melted, nofun⟩
    cases unstarted.layout.symm.trans hl
  · intro log g melting
    exact ⟨melting.cells, melting.melted, melting.inside⟩
  · intro log e g l opens layout drawn
    exact Game.melting_of_drawn drawn layout opens
  · intro log es g g' op melting
    exact melting.conserves op.conserves (Game.layout_of_setting op.setting)
  · intro log g melting
    refine melting.conserves (.of_silent ?_ (fun _ => rfl) rfl) rfl
    simp [Event.opensLevel, Event.isMelt]

/-- Cell by cell, what has melted since the opening of the level and what can still melt make up
what the layout has there. -/
theorem melt_conservation (new : Game.new levels rules seed = .ok g₀)
    (accepted : ∀ l ∈ levels, l.Accepted) (h : Run.Reachable g₀ r)
    (started : r.game.phase ≠ .idle) :
    ∃ l, r.game.layout = some l ∧
      (∀ c, c.OnBoard → (Event.sinceOpening r.events).count (.tileMelted c) +
        r.game.board.meltValue c = (l.tileAt c).meltValue) ∧
      r.game.melted + (boardCells.map r.game.board.meltValue).sum = r.game.total ∧
      r.game.melted ≤ r.game.total ∧
      (r.game.melted = r.game.total ↔
        ∀ c k, r.game.board.kind? c = some k → k.meltValue = 0) := by
  have melting := h.melting new
  have loaded := h.loaded new
  cases layout : r.game.layout with
  | none => exact absurd (loaded.idle layout).1 started
  | some l =>
    obtain ⟨m, _, found, rfl, total⟩ := loaded.layout_eq l layout
    have placed := (accepted m (List.mem_of_getElem? found)).wellPlaced
    have sum : r.game.melted + (boardCells.map r.game.board.meltValue).sum = r.game.total := by
      rw [melting.sum layout, Level.sum_meltValue_tileAt (Level.variant_wellPlaced placed _)]
      exact total.symm
    refine ⟨_, rfl, melting.cells _ layout, sum, by omega, ?_⟩
    constructor
    · intro all c k kind
      have zero : (boardCells.map r.game.board.meltValue).sum = 0 := by omega
      have here := List.sum_eq_zero_iff_forall_eq_nat.1 zero (r.game.board.meltValue c)
        (List.mem_map_of_mem (mem_boardCells.2 (Board.onBoard_of_kind? kind)))
      simpa [Board.meltValue, kind] using here
    · intro none_left
      have zero : (boardCells.map r.game.board.meltValue).sum = 0 := by
        apply List.sum_eq_zero_iff_forall_eq_nat.2
        intro n hn
        obtain ⟨c, _, rfl⟩ := List.mem_map.1 hn
        cases kind : r.game.board.kind? c with
        | none => simp [Board.meltValue, kind]
        | some k => simpa [Board.meltValue, kind] using none_left c k kind
      omega

end

/-- A strip of ice that starts with a thick tile. -/
def strip : Level where
  origin := .zero
  spawn := .zero
  tiles := .set (.filled 3 1 .ice) 0 0 .thickIce
  keys := []
  blocks := []
  bag := none
  patches := []

theorem strip_accepted : strip.Accepted := by decide

/-- Off the thick tile, one of four melts is done. -/
theorem melt_conservation_on_strip :
    ∃ g₀ r, Game.new [strip] .standard 0 = .ok g₀ ∧ Run.Reachable g₀ r ∧
      r.game.phase ≠ .idle ∧ r.game.total = 4 ∧ r.game.melted = 1 ∧
      r.game.melted + (boardCells.map r.game.board.meltValue).sum = r.game.total := by
  have new : Game.new [strip] .standard 0 = .ok _ := rfl
  have accepted : ∀ l ∈ [strip], l.Accepted := by simpa using strip_accepted
  refine ⟨_, _, new, .actions [.start 1, .tick (.hold .right)], by decide +kernel,
    by decide +kernel, by decide +kernel, ?_⟩
  exact (melt_conservation new accepted (.actions _) (by decide +kernel)).choose_spec.2.2.1

end IceMaze
