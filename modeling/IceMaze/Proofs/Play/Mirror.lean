import IceMaze.Proofs.Play.Redrawing

/-!
A mirror of the board that is kept by the events alone.

Whoever knows the levels and hears all the events can keep a board of his own, without the blocks:
he draws a level when it starts or is reset and changes a tile when he is told to
(`Mirror.see`). Every operation tells all that it does to the tiles (`Operation.reflects`), so this
board always looks like the real one (`mirror_shows_board`).
-/

namespace IceMaze

/-- The tile without the block on it. -/
def Tile.cleared (t : Tile) : Tile := { t with block := none }

/-- The event is about the level as a whole. -/
def Event.isTurn : Event → Bool
  | .levelStarted .. | .levelReset .. | .levelCompleted .. => true
  | _ => false

namespace Board

/-- What an event says that has happened to the tiles. -/
def reflect (b : Board) : Event → Board
  | .tileChanged c k => b.changeTile c k
  | .keyCollected c => b.modify c fun t => { t with key := false }
  | .bagCollected c => b.modify c fun t => { t with bag := false }
  | .teleported c d =>
    (b.modify c fun t => { t with plaid := true }).modify d fun t => { t with plaid := true }
  | _ => b

/-- The boards look the same, blocks aside. -/
def Alike (b b' : Board) : Prop := ∀ c, (b.get? c).map Tile.cleared = (b'.get? c).map Tile.cleared

end Board

/-- What a listener keeps. -/
structure Mirror where
  board : Board
  /-- The board as it was last drawn. -/
  drawn : Board
  /-- The level completed last was solved. -/
  solved : Bool

namespace Mirror

def blank : Mirror := ⟨.empty, .empty, false⟩

/-- The tiles of a level, with its coin bag if it is earned. -/
def draw (l : Level) (earned : Bool) : Board :=
  match if earned then l.bag else none with
  | some c => (Board.draw l).modify c fun t => { t with bag := true }
  | none => Board.draw l

def see (levels : List Level) (m : Mirror) : Event → Mirror
  | .levelStarted number alt =>
    match levels[number - 1]? with
    | some l =>
      let board := draw (l.variant alt) m.solved
      { m with board := board, drawn := board }
    | none => m
  | .levelReset .. => { m with board := m.drawn }
  | .levelCompleted _ solved _ => { m with solved := solved }
  | e => { m with board := m.board.reflect e }

/-- The mirror after some events. -/
def of (levels : List Level) (log : List Event) : Mirror := log.foldl (see levels) blank

theorem of_append (levels : List Level) (log es : List Event) :
    of levels (log ++ es) = es.foldl (see levels) (of levels log) := by
  rw [of, List.foldl_append, of]

section
variable (levels : List Level) (log : List Event)

theorem of_reset (number : Nat) (times : UInt32) :
    of levels (log ++ [.levelReset number times]) =
      { of levels log with board := (of levels log).drawn } := by
  rw [of_append]
  rfl

theorem of_completed (number points : Nat) (solved : Bool) :
    of levels (log ++ [.levelCompleted number solved points]) =
      { of levels log with solved := solved } := by
  rw [of_append]
  rfl

theorem of_started {number : Nat} {l : Level} (listed : levels[number - 1]? = some l) (alt : Bool) :
    of levels (log ++ [.levelStarted number alt]) =
      ⟨draw (l.variant alt) (of levels log).solved, draw (l.variant alt) (of levels log).solved,
        (of levels log).solved⟩ := by
  rw [of_append, List.foldl_cons, List.foldl_nil, see, listed]

end

theorem see_of_not_turn {e : Event} (h : e.isTurn = false) (levels : List Level) (m : Mirror) :
    m.see levels e = { m with board := m.board.reflect e } := by
  cases e with
  | levelStarted | levelReset | levelCompleted => cases h
  | _ => rfl

theorem foldl_see {es : List Event} (h : ∀ e ∈ es, e.isTurn = false) (levels : List Level)
    (m : Mirror) :
    es.foldl (see levels) m = { m with board := es.foldl Board.reflect m.board } := by
  induction es generalizing m with
  | nil => rfl
  | cons e es ih =>
    obtain ⟨first, rest⟩ := List.forall_mem_cons.1 h
    rw [List.foldl_cons, see_of_not_turn first, ih rest, List.foldl_cons]

end Mirror

/-! ## Boards that look the same -/

namespace Board

variable {a b b' : Board}

theorem Alike.refl (b : Board) : b.Alike b := fun _ => rfl

theorem Alike.trans (first : a.Alike b) (second : b.Alike b') : a.Alike b' := fun c =>
  (first c).trans (second c)

theorem Alike.modify (h : b.Alike b') {f : Tile → Tile} (c : Coord)
    (hf : ∀ t s, t.cleared = s.cleared → (f t).cleared = (f s).cleared) :
    (b.modify c f).Alike (b'.modify c f) := by
  intro d
  rw [get?_modify, get?_modify]
  split
  · have same := h d
    cases hb : b.get? d with
    | none =>
      rw [hb] at same
      rw [Option.map_eq_none_iff.1 same.symm]
    | some t =>
      obtain ⟨s, hb', same⟩ := Option.map_eq_some_iff.1 (hb ▸ same).symm
      rw [hb']
      exact congrArg some (hf t s same.symm)
  · exact h d

/-- What is done to blocks cannot be seen. -/
theorem alike_modify {f : Tile → Tile} (hf : ∀ t, (f t).cleared = t.cleared) (b : Board)
    (c : Coord) : b.Alike (b.modify c f) := by
  intro d
  rw [get?_modify]
  split
  · cases b.get? d <;> simp [hf]
  · rfl

theorem alike_place (b : Board) (marks : List (Coord × Nat)) : b.Alike (b.place marks) := by
  unfold place
  induction marks generalizing b with
  | nil => exact .refl b
  | cons m marks ih =>
    rw [List.foldl_cons]
    exact (alike_modify (by simp [Tile.cleared]) b m.1).trans (ih _)

theorem Alike.changeTile (h : b.Alike b') (c : Coord) (k : TileKind) :
    (b.changeTile c k).Alike (b'.changeTile c k) := h.modify c fun _ _ _ => rfl

theorem Alike.repaint (h : b.Alike b') (changes : List (Coord × TileKind)) :
    (changes.foldl (fun b p => b.changeTile p.1 p.2) b).Alike
      (changes.foldl (fun b p => b.changeTile p.1 p.2) b') := by
  induction changes generalizing b b' with
  | nil => exact h
  | cons p changes ih =>
    rw [List.foldl_cons, List.foldl_cons]
    exact ih (h.changeTile p.1 p.2)

theorem cleared_eq {t s : Tile} :
    t.cleared = s.cleared ↔
      t.kind = s.kind ∧ t.link = s.link ∧ t.key = s.key ∧ t.bag = s.bag ∧ t.plaid = s.plaid := by
  cases t
  cases s
  simp [Tile.cleared]

end Board

theorem Mirror.alike_draw (l : Level) (earned : Bool) :
    (Mirror.draw l earned).Alike (Game.openingBoard l earned) := by
  have blocks := Board.alike_place (Board.draw l) l.blocks.zipIdx
  unfold Mirror.draw Game.openingBoard Game.furnish
  dsimp only
  cases if earned then l.bag else none with
  | none => exact blocks
  | some c =>
    apply blocks.modify c
    intro t s same
    rw [Board.cleared_eq] at same ⊢
    simp [same]

namespace Game

open Board

variable {g g' : Game}

/-- The events tell all that changes about the tiles. -/
structure Reflects (es : List Event) (g g' : Game) : Prop where
  plain : ∀ e ∈ es, e.isTurn = false
  board : ∀ b : Board, b.Alike g.board → (es.foldl reflect b).Alike g'.board

namespace Reflects

theorem refl (g : Game) : Reflects [] g g := ⟨by simp, fun _ => id⟩

/-- Events that are not about tiles go with changes that cannot be seen. -/
theorem of_unseen {es : List Event} (plain : ∀ e ∈ es, e.isTurn = false ∧ ∀ b : Board, b.reflect e = b)
    (unseen : g.board.Alike g'.board) : Reflects es g g' where
  plain e he := (plain e he).1
  board b alike := by
    have same : es.foldl reflect b = b := by
      clear alike
      induction es with
      | nil => rfl
      | cons e es ih =>
        obtain ⟨first, rest⟩ := List.forall_mem_cons.1 plain
        rw [List.foldl_cons, first.2, ih rest]
    rw [same]
    exact alike.trans unseen

/-- One event tells what is done to one tile. -/
theorem of_modify {e : Event} {c : Coord} {f : Tile → Tile} (plain : e.isTurn = false)
    (told : ∀ b : Board, b.reflect e = b.modify c f) (board : g'.board = g.board.modify c f)
    (hf : ∀ t s : Tile, t.cleared = s.cleared → (f t).cleared = (f s).cleared) :
    Reflects [e] g g' where
  plain := by simpa using plain
  board b alike := by
    rw [List.foldl_cons, List.foldl_nil, told, board]
    exact alike.modify c hf

end Reflects

/-! ## Operations -/

theorem reflects_leave (c : Coord) : Reflects (g.leaveEvents c) g (g.leave c) := by
  unfold leaveEvents leave
  cases (g.board.kind? c).bind melt? with
  | none => exact .refl g
  | some k => exact ⟨by simp [Event.isTurn], fun b alike => alike.changeTile c k⟩

theorem reflects_pushBlock (i : Nat) (d : Direction) :
    Reflects (g.pushEvents i d) g (g.pushBlock i d) := by
  unfold pushEvents
  cases here : g.blocks[i]? with
  | none =>
    rw [pushBlock_of_none d here]
    exact .refl g
  | some b =>
    refine .of_unseen (by simp [Event.isTurn, reflect]) ?_
    rw [board_pushBlock d here]
    refine alike_modify (fun t => ?_) _ _
    split <;> rfl

theorem reflect_pressEvents (b : Board) :
    g.pressEvents.foldl reflect b = g.board.secrets.foldl (fun b p => b.changeTile p.1 p.2) b := by
  unfold pressEvents
  cases g.board.secrets with
  | nil => rfl
  | cons p changes => simp [List.foldl_append, List.foldl_map, reflect]

theorem reflects_pressButton : Reflects g.pressEvents g g.pressButton where
  plain := g.forall_mem_pressEvents (fun _ _ => rfl) fun _ => rfl
  board b alike := by
    rw [reflect_pressEvents, board_pressButton]
    exact (alike.repaint g.board.secrets).trans (alike_place _ _)

theorem reflects_landBlock (i : Nat) (b : Block) (m : Motion) :
    Reflects (g.landEvents i b m) g (g.landBlock i b m) := by
  refine .of_unseen ?_ ?_
  · unfold landEvents
    split <;> simp [Event.isTurn, reflect]
  · rw [board_landBlock]
    exact alike_modify (by simp [Tile.cleared]) _ _

theorem reflects_takeBag (c : Coord) : Reflects (g.bagEvents c) g (g.takeBag c) := by
  unfold bagEvents takeBag
  split
  · refine .of_modify (c := c) (f := fun t => { t with bag := false }) rfl (fun _ => rfl) rfl
      fun t s same => ?_
    rw [cleared_eq] at same ⊢
    simp [same]
  · exact .refl g

theorem reflects_takeKey (c : Coord) : Reflects (g.keyEvents c) g (g.takeKey c) := by
  unfold keyEvents takeKey
  split
  · refine .of_modify (c := c) (f := fun t => { t with key := false }) rfl (fun _ => rfl) rfl
      fun t s same => ?_
    rw [cleared_eq] at same ⊢
    simp [same]
  · exact .refl g

theorem reflects_openLock (c : Coord) :
    Reflects [.tileChanged c .ice, .keyUsed c] g (g.openLock c) :=
  ⟨by simp [Event.isTurn], fun _ alike => alike.changeTile c .ice⟩

theorem reflects_teleport (c d : Coord) : Reflects [.teleported c d] g (g.teleport c d) := by
  have wear : ∀ t s : Tile, t.cleared = s.cleared →
      { t with plaid := true }.cleared = { s with plaid := true }.cleared := by
    intro t s same
    rw [cleared_eq] at same ⊢
    simp [same]
  refine ⟨by simp [Event.isTurn], fun b alike => ?_⟩
  have worn := (alike.modify c wear).modify d wear
  exact worn

theorem Operation.reflects {es : List Event} (op : Operation g es g') : Reflects es g g' := by
  cases op with
  | still _ board => exact ⟨by simp, fun _ alike => board ▸ alike⟩
  | leave c => exact reflects_leave c
  | pushBlock i d => exact reflects_pushBlock i d
  | pressButton => exact reflects_pressButton
  | landBlock i b m => exact reflects_landBlock i b m
  | takeBag c => exact reflects_takeBag c
  | takeKey c => exact reflects_takeKey c
  | openLock => exact reflects_openLock _
  | teleport => exact reflects_teleport _ _

/-! ## Turns -/

/-- The mirror looks like the board, and what a reset would draw is what it would draw. -/
structure Shows (levels : List Level) (log : List Event) (g : Game) : Prop where
  board : (Mirror.of levels log).board.Alike g.board
  solved : (Mirror.of levels log).solved = g.solvedPrevious
  drawn : ∀ l, g.phase = .playing → g.layout = some l →
    (Mirror.of levels log).drawn.Alike (openingBoard l g.solvedPrevious)

variable {levels : List Level}

theorem Shows.reflects {log es : List Event} (h : Shows levels log g) (reflects : Reflects es g g')
    (setting : g'.setting = g.setting) : Shows levels (log ++ es) g' := by
  have solved : g'.solvedPrevious = g.solvedPrevious := solvedPrevious_of_setting setting
  have seen := Mirror.foldl_see reflects.plain levels (Mirror.of levels log)
  rw [← Mirror.of_append] at seen
  refine ⟨?_, ?_, fun l playing layout => ?_⟩
  · rw [seen]
    exact reflects.board _ h.board
  · rw [seen, solved]
    exact h.solved
  · rw [seen, solved]
    exact h.drawn l ((phase_of_setting setting).symm.trans playing)
      ((layout_of_setting setting).symm.trans layout)

theorem Shows.resetLevel {past : List Event} {l : Level} (h : Shows levels (past ++ g.events) g)
    (playing : g.phase = .playing) (layout : g.layout = some l) :
    Shows levels (past ++ g.resetLevel.events) g.resetLevel := by
  have setting := g.setting_resetLevel_of_playing playing layout
  have solved : g.resetLevel.solvedPrevious = g.solvedPrevious :=
    congrArg Setting.solvedPrevious setting
  have board := board_resetLevel playing layout
  have drawn := h.drawn l playing layout
  rw [events_resetLevel_of_playing g playing layout, ← List.append_assoc]
  refine ⟨?_, ?_, fun l' _ layout' => ?_⟩
  · rw [Mirror.of_reset, board]
    exact drawn
  · rw [Mirror.of_reset, solved]
    exact h.solved
  · have same : l' = l := by
      rw [layout_resetLevel, layout] at layout'
      exact (Option.some.inj layout').symm
    rw [Mirror.of_reset, solved, same]
    exact drawn

theorem shows_load {past : List Event} {n : Nat} {l : Level} (levels_eq : g.levels = levels)
    (found : g.level? n = some l)
    (solved : (Mirror.of levels (past ++ g.events)).solved = g.solvedPrevious) :
    Shows levels (past ++ (g.load n l).events) (g.load n l) := by
  have solved' := g.solvedPrevious_load n l
  have board := g.board_load n l
  have listed : levels[n - 1]? = some l := levels_eq ▸ (level?_eq_some.1 found).2
  have alike := Mirror.alike_draw (l.variant (g.flipCoin l).1) g.solvedPrevious
  rw [events_load, ← List.append_assoc]
  refine ⟨?_, ?_, fun l' _ layout' => ?_⟩
  · rw [Mirror.of_started levels _ listed, board, solved]
    exact alike
  · rw [Mirror.of_started levels _ listed, solved']
    exact solved
  · have same : l' = l.variant (g.flipCoin l).1 :=
      Option.some.inj (layout'.symm.trans (g.layout_load n l))
    rw [Mirror.of_started levels _ listed, solved', same, solved]
    exact alike

theorem Turn.shows {past : List Event} (turn : Turn g g') (loaded : g.setting.Loaded levels)
    (h : Shows levels (past ++ g.events) g) : Shows levels (past ++ g'.events) g' := by
  have completed : Mirror.of levels (past ++ g.complete.events) =
      { Mirror.of levels (past ++ g.events) with solved := g.complete.solvedPrevious } := by
    rw [events_complete, ← List.append_assoc, Mirror.of_completed]
    rfl
  cases turn with
  | fail playing =>
    obtain ⟨l, layout⟩ := loaded.exists_layout playing
    have told : Reflects [.stuck g.puffle.pos] g
        ((g.note (.stuck g.puffle.pos g.levelNumber)).emit (.stuck g.puffle.pos)) :=
      .of_unseen (by simp [Event.isTurn, reflect]) (.refl _)
    refine Shows.resetLevel ?_ playing layout
    rw [events_emit, ← List.append_assoc]
    exact h.reflects told rfl
  | reset playing =>
    obtain ⟨l, layout⟩ := loaded.exists_layout playing
    exact h.resetLevel playing layout
  | load found => exact shows_load loaded.levels_eq found h.solved
  | next found =>
    exact shows_load (g := g.complete) loaded.levels_eq found (congrArg Mirror.solved completed)
  | conclude =>
    have ended : Shows levels (past ++ g.complete.events) { g.complete with phase := .finished } := by
      refine ⟨?_, congrArg Mirror.solved completed, fun _ playing => by cases playing⟩
      rw [completed]
      exact h.board
    have told : Reflects [.allLevelsComplete g.complete.score]
        { g.complete with phase := .finished } g.complete.finish :=
      .of_unseen (by simp [Event.isTurn, reflect]) (.refl _)
    rw [events_finish, ← List.append_assoc]
    exact ended.reflects told rfl

end Game

/-! ## Runs -/

section
variable {levels : List Level} {rules : Rules} {seed : UInt64} {g₀ : Game} {r : Run}

theorem Game.shows_of_new (new : Game.new levels rules seed = .ok g₀) : g₀.Shows levels [] := by
  unfold Game.new at new
  split at new
  · cases new
  · cases new
    have blank : Mirror.of levels [] = ⟨.empty, .empty, false⟩ := rfl
    refine ⟨?_, ?_, fun _ playing => by cases playing⟩
    · rw [blank]
      exact .refl .empty
    · rw [blank]

theorem Run.Reachable.shows (new : Game.new levels rules seed = .ok g₀) (h : Run.Reachable g₀ r) :
    r.game.Shows levels r.events := by
  apply h.by_turns new (Game.shows_of_new new)
  · intro log g shows
    exact ⟨shows.board, shows.solved, shows.drawn⟩
  · intro log es g g' op shows
    exact shows.reflects op.reflects op.setting
  · intro past g g' turn loaded shows
    exact turn.shows loaded shows

/-- After any run the mirror has the same tile as the board on every cell, blocks aside. -/
theorem mirror_shows_board (new : Game.new levels rules seed = .ok g₀) (h : Run.Reachable g₀ r) :
    ∀ c, c.OnBoard → ∃ t s, r.game.board.get? c = some t ∧
      (Mirror.of levels r.events).board.get? c = some s ∧
      s.kind = t.kind ∧ s.link = t.link ∧ s.key = t.key ∧ s.bag = t.bag ∧ s.plaid = t.plaid := by
  intro c on
  obtain ⟨t, live⟩ := Option.isSome_iff_exists.1
    (Board.get?_isSome.trans (decide_eq_true on) : (r.game.board.get? c).isSome = true)
  have alike := (h.shows new).board c
  rw [live] at alike
  obtain ⟨s, kept, same⟩ := Option.map_eq_some_iff.1 alike
  exact ⟨t, s, live, kept, Board.cleared_eq.1 same⟩

end

/-- Ice with a key on the tile next to the puffle. -/
def closet : Level where
  origin := .zero
  spawn := .zero
  tiles := .filled 3 1 .ice
  keys := [⟨1, 0⟩]
  blocks := []
  bag := none
  patches := []

/-- One tile has melted and the key is taken, in the mirror as on the board. -/
theorem mirror_shows_closet :
    ∃ g₀ r s, Game.new [closet] .standard 0 = .ok g₀ ∧ Run.Reachable g₀ r ∧
      r.game.board.kind? ⟨0, 0⟩ = some .water ∧ .keyCollected ⟨1, 0⟩ ∈ r.events ∧
      (Mirror.of [closet] r.events).board.get? ⟨1, 0⟩ = some s ∧ s.key = false := by
  obtain ⟨g₀, new⟩ : ∃ g₀, Game.new [closet] .standard 0 = .ok g₀ := ⟨_, rfl⟩
  have taken : ((.start 1 :: List.replicate 4 (.tick (.hold .right))).foldl Run.act
        (.start g₀)).game.board.kind? ⟨0, 0⟩ = some .water ∧
      .keyCollected ⟨1, 0⟩ ∈ ((.start 1 :: List.replicate 4 (.tick (.hold .right))).foldl Run.act
        (.start g₀)).events ∧
      (((.start 1 :: List.replicate 4 (.tick (.hold .right))).foldl Run.act
        (.start g₀)).game.board.get? ⟨1, 0⟩).map Tile.key = some false := by
    cases new
    decide +kernel
  obtain ⟨melted, told, bare⟩ := taken
  obtain ⟨t, s, live, kept, _, _, key, _⟩ :=
    mirror_shows_board new (.actions _) ⟨1, 0⟩ (by decide)
  refine ⟨g₀, _, s, new, .actions _, melted, told, kept, ?_⟩
  rw [live] at bare
  exact key.trans (Option.some.inj bare)

end IceMaze
