import IceMaze.Proofs.Board.Sweep
import IceMaze.Proofs.Play.Step

/-!
What each operation does to the board, the blocks and the puffle.

There is one lemma for each operation and each part of the game that it changes. `SameGround` is
what the operations have in common that change neither blocks nor kinds, `Opened` what loading and
resetting have.
-/

namespace IceMaze.Game

open Board

variable {g : Game}

/-! ## Nothing on the ground changes -/

/-- The blocks and the melts are the same, and the board shows the same kinds, links and numbers. -/
structure SameGround (g g' : Game) : Prop where
  blocks : g'.blocks = g.blocks
  melted : g'.melted = g.melted
  kind? : ∀ c, g'.board.kind? c = g.board.kind? c
  blockOn? : ∀ c, g'.board.blockOn? c = g.board.blockOn? c
  link? : ∀ c, g'.board.link? c = g.board.link? c

namespace SameGround

theorem of_board {g' : Game} (blocks : g'.blocks = g.blocks) (melted : g'.melted = g.melted)
    (board : g'.board = g.board) : g.SameGround g' :=
  ⟨blocks, melted, fun _ => by rw [board], fun _ => by rw [board], fun _ => by rw [board]⟩

theorem trans {h k : Game} (gh : g.SameGround h) (hk : h.SameGround k) : g.SameGround k where
  blocks := hk.blocks.trans gh.blocks
  melted := hk.melted.trans gh.melted
  kind? c := (hk.kind? c).trans (gh.kind? c)
  blockOn? c := (hk.blockOn? c).trans (gh.blockOn? c)
  link? c := (hk.link? c).trans (gh.link? c)

theorem linksStay {g' : Game} (same : g.SameGround g') (h : g.board.LinksStay) :
    g'.board.LinksStay := by
  intro c d hcd
  rw [same.link?] at hcd
  exact h c d hcd

theorem arrive (c : Coord) : g.SameGround (g.arrive c) := .of_board rfl rfl rfl

theorem awaitStuckCheck : g.SameGround g.awaitStuckCheck := .of_board rfl rfl rfl

theorem takeBag (c : Coord) : g.SameGround (g.takeBag c) := by
  unfold Game.takeBag
  split
  · exact ⟨rfl, rfl, fun _ => kind?_modify (by simp), fun _ => blockOn?_modify (by simp),
      fun _ => link?_modify (by simp)⟩
  · exact .of_board rfl rfl rfl

theorem takeKey (c : Coord) : g.SameGround (g.takeKey c) := by
  unfold Game.takeKey
  split
  · exact ⟨rfl, rfl, fun _ => kind?_modify (by simp), fun _ => blockOn?_modify (by simp),
      fun _ => link?_modify (by simp)⟩
  · exact .of_board rfl rfl rfl

theorem teleport (c d : Coord) : g.SameGround (g.teleport c d) where
  blocks := rfl
  melted := rfl
  kind? e := by
    refine (kind?_modify ?_).trans (kind?_modify ?_) <;> simp
  blockOn? e := by
    refine (blockOn?_modify ?_).trans (blockOn?_modify ?_) <;> simp
  link? e := by
    refine (link?_modify ?_).trans (link?_modify ?_) <;> simp

/-- The puffle has reached a cell, and the bag on it is taken. -/
theorem reach (c : Coord) : g.SameGround ((g.arrive c).takeBag c) := (arrive c).trans (takeBag c)

/-- The key on a cell is taken, and the puffle may turn out to be stuck. -/
theorem search (c : Coord) : g.SameGround (g.takeKey c).awaitStuckCheck :=
  (takeKey c).trans awaitStuckCheck

theorem exit (c d : Coord) : g.SameGround ((g.teleport c d).takeKey c) :=
  (teleport c d).trans (takeKey c)

end SameGround

/-! ## Leaving a cell -/

@[simp] theorem blocks_leave (c : Coord) : (g.leave c).blocks = g.blocks := by
  unfold leave
  split <;> rfl

@[simp] theorem puffle_leave (c : Coord) : (g.leave c).puffle = g.puffle := by
  unfold leave
  split <;> rfl

theorem board_leave (c : Coord) :
    (g.leave c).board =
      match (g.board.kind? c).bind melt? with
      | some k => g.board.changeTile c k
      | none => g.board := by
  unfold leave
  cases (g.board.kind? c).bind melt? <;> rfl

theorem melted_leave (c : Coord) :
    (g.leave c).melted = g.melted + if ((g.board.kind? c).bind melt?).isSome then 1 else 0 := by
  unfold leave
  cases (g.board.kind? c).bind melt? <;> rfl

theorem kind?_leave (c d : Coord) :
    (g.leave c).board.kind? d =
      if d = c then (g.board.kind? d).map fun k => (melt? k).getD k else g.board.kind? d := by
  rw [board_leave]
  cases h : (g.board.kind? c).bind melt? with
  | none =>
    dsimp only
    split
    · rename_i same
      subst same
      cases hk : g.board.kind? d with
      | none => rfl
      | some k => simp_all
    · rfl
  | some k =>
    obtain ⟨j, hj, hk⟩ := Option.bind_eq_some_iff.1 h
    dsimp only
    rw [kind?_changeTile]
    by_cases same : d = c
    · subst same
      simp [onBoard_of_kind? hj, hj, hk]
    · simp [same]

/-- Nothing but a block on the cell itself can be lost. -/
theorem blockOn?_leave {c : Coord} (bare : g.board.blockOn? c = none) (d : Coord) :
    (g.leave c).board.blockOn? d = g.board.blockOn? d := by
  rw [board_leave]
  split
  · rw [blockOn?_changeTile]
    split
    · rename_i same
      rw [same, bare]
    · rfl
  · rfl

theorem blockOn?_of_leave {c d : Coord} {i : Nat}
    (h : (g.leave c).board.blockOn? d = some i) : g.board.blockOn? d = some i := by
  rw [board_leave] at h
  split at h
  · rw [blockOn?_changeTile] at h
    split at h
    · cases h
    · exact h
  · exact h

theorem hasBag_of_leave {c d : Coord} (h : (g.leave c).board.hasBag d = true) :
    g.board.hasBag d = true := by
  rw [board_leave] at h
  split at h
  · rw [hasBag_changeTile] at h
    split at h
    · cases h
    · exact h
  · exact h

theorem linksStay_leave (c : Coord) (h : g.board.LinksStay) : (g.leave c).board.LinksStay := by
  rw [board_leave]
  split
  · exact h.changeTile
  · exact h

/-! ## Pushing a block -/

section
variable {i : Nat} {b : Block} (d : Direction)

/-- A block that has just been pushed. -/
def pushed (g : Game) (b : Block) (d : Direction) : Block :=
  { b with momentum := none, motion := some (.start b.pos (b.pos.step d) d g.rules.blockMoveTicks) }

@[simp] theorem target_pushed : (g.pushed b d).target = b.pos.step d := rfl

theorem motion_pushed : (g.pushed b d).motion ≠ none := nofun

theorem pushBlock_of_none (absent : g.blocks[i]? = none) : g.pushBlock i d = g := by
  simp [pushBlock, absent]

theorem blocks_pushBlock (here : g.blocks[i]? = some b) :
    (g.pushBlock i d).blocks = g.blocks.set i (g.pushed b d) := by
  simp only [pushBlock, here]
  rfl

theorem board_pushBlock (here : g.blocks[i]? = some b) :
    (g.pushBlock i d).board =
      g.board.modify b.pos fun t => if t.block = some i then { t with block := none } else t := by
  simp only [pushBlock, here]
  rfl

theorem kind?_pushBlock (c : Coord) : (g.pushBlock i d).board.kind? c = g.board.kind? c := by
  cases here : g.blocks[i]? with
  | none => rw [pushBlock_of_none d here]
  | some b =>
    rw [board_pushBlock d here]
    exact kind?_modify fun t => by split <;> rfl

theorem linksStay_pushBlock (h : g.board.LinksStay) : (g.pushBlock i d).board.LinksStay := by
  cases here : g.blocks[i]? with
  | none => rwa [pushBlock_of_none d here]
  | some b =>
    rw [board_pushBlock d here]
    exact h.modify fun t => by split <;> rfl

@[simp] theorem puffle_pushBlock : (g.pushBlock i d).puffle = g.puffle := by
  unfold pushBlock
  split <;> rfl

@[simp] theorem melted_pushBlock : (g.pushBlock i d).melted = g.melted := by
  unfold pushBlock
  split <;> rfl

@[simp] theorem length_pushBlock : (g.pushBlock i d).blocks.length = g.blocks.length := by
  unfold pushBlock
  split
  · rfl
  · exact List.length_set

theorem blockOn?_pushBlock (here : g.blocks[i]? = some b) (c : Coord) :
    (g.pushBlock i d).board.blockOn? c =
      if c = b.pos ∧ g.board.blockOn? c = some i then none else g.board.blockOn? c := by
  rw [board_pushBlock d here, blockOn?, blockOn?, get?_modify]
  by_cases same : c = b.pos
  · subst same
    cases ht : g.board.get? b.pos with
    | none => simp
    | some t => by_cases own : t.block = some i <;> simp [own]
  · simp [same]

end

/-! ## Pressing the button -/

/-- The blocks at rest on some cells, as marks on the board. -/
def marksOn (g : Game) (cells : List Coord) : List (Coord × Nat) :=
  (g.blocks.zipIdx.filter fun p => !p.1.isMoving && cells.contains p.1.pos).map fun p =>
    (p.1.pos, p.2)

theorem mem_marksOn {cells : List Coord} {c : Coord} {i : Nat} :
    (c, i) ∈ g.marksOn cells ↔
      c ∈ cells ∧ ∃ b, g.blocks[i]? = some b ∧ b.motion = none ∧ b.pos = c := by
  simp only [marksOn, List.mem_map, List.mem_filter, Prod.exists, List.mem_zipIdx_iff_getElem?,
    Bool.and_eq_true, Bool.not_eq_true', List.contains_iff_mem, Prod.mk.injEq, Block.isMoving,
    Option.isSome_eq_false_iff, Option.isNone_iff_eq_none]
  constructor
  · rintro ⟨b, _, ⟨here, rests, on⟩, rfl, rfl⟩
    exact ⟨on, b, here, rests, rfl⟩
  · rintro ⟨on, b, here, rests, rfl⟩
    exact ⟨b, i, ⟨here, rests, on⟩, rfl, rfl⟩

theorem board_keepBlocks (cells : List Coord) :
    (g.keepBlocks cells).board = g.board.place (g.marksOn cells) := by
  rw [keepBlocks, place, marksOn, List.foldl_map, List.foldl_filter]

theorem board_pressButton :
    g.pressButton.board =
      g.board.revealSecret.place (g.marksOn (g.board.secrets.map Prod.fst)) := by
  unfold pressButton
  cases h : g.board.secrets with
  | nil =>
    have none_on : g.marksOn [] = [] := by simp [marksOn]
    simp [revealSecret, place, h, none_on]
  | cons p changes =>
    simp only [emitAll_eq]
    exact board_keepBlocks _

@[simp] theorem blocks_pressButton : g.pressButton.blocks = g.blocks := by
  obtain ⟨board, events, notes, pressed⟩ := g.pressButton_eq
  rw [pressed]

@[simp] theorem puffle_pressButton : g.pressButton.puffle = g.puffle := by
  obtain ⟨board, events, notes, pressed⟩ := g.pressButton_eq
  rw [pressed]

@[simp] theorem melted_pressButton : g.pressButton.melted = g.melted := by
  obtain ⟨board, events, notes, pressed⟩ := g.pressButton_eq
  rw [pressed]

theorem kind?_pressButton (c : Coord) :
    g.pressButton.board.kind? c = (g.board.kind? c).map fun k => (revealed? k).getD k := by
  rw [board_pressButton, kind?_place, kind?_revealSecret]

theorem linksStay_pressButton (h : g.board.LinksStay) : g.pressButton.board.LinksStay := by
  intro c d hcd
  rw [board_pressButton, link?_place] at hcd
  exact h.revealSecret c d hcd

/-! ## A move starts -/

section
variable (c : Coord) (d : Direction)

@[simp] theorem puffle_pushAhead : (g.pushAhead c d).puffle = g.puffle := by
  unfold pushAhead
  split <;> simp

@[simp] theorem blocks_pressAt : (g.pressAt c).blocks = g.blocks := by
  unfold pressAt
  split <;> simp

@[simp] theorem puffle_pressAt : (g.pressAt c).puffle = g.puffle := by
  unfold pressAt
  split <;> simp

theorem sameGround_depart (e : Coord) : g.SameGround (g.depart c e d) := .of_board rfl rfl rfl

theorem kind?_pushAhead (e : Coord) : (g.pushAhead c d).board.kind? e = g.board.kind? e := by
  unfold pushAhead
  split
  · exact kind?_pushBlock d e
  · rfl

theorem kind?_pressAt (e : Coord) :
    (g.pressAt c).board.kind? e =
      if g.board.kind? c = some .button then
        (g.board.kind? e).map fun k => (revealed? k).getD k
      else g.board.kind? e := by
  unfold pressAt
  split
  · exact kind?_pressButton e
  · rfl

end

theorem step_ne (c : Coord) (d : Direction) : c.step d ≠ c := by
  obtain ⟨x, y⟩ := c
  cases d <;> simp only [Coord.step, Direction.delta, ne_eq, Coord.mk.injEq] <;> omega

/-- Away from the puffle only the secret changes kinds when a move starts. -/
theorem kind?_startMove (d : Direction) {c : Coord} (away : c ≠ g.puffle.pos) :
    (g.startMove d).board.kind? c =
      if g.board.kind? (g.puffle.pos.step d) = some .button then
        (g.board.kind? c).map fun k => (revealed? k).getD k
      else g.board.kind? c := by
  have left : ∀ e, e ≠ g.puffle.pos →
      ((g.leave g.puffle.pos).pushAhead (g.puffle.pos.step d) d).board.kind? e =
        g.board.kind? e := by
    intro e away
    rw [kind?_pushAhead, kind?_leave, if_neg away]
  rw [startMove_eq, (sameGround_depart _ d _).kind?, kind?_pressAt, left c away,
    left _ (step_ne g.puffle.pos d)]

theorem kind?_startMove_ahead (d : Direction) :
    (g.startMove d).board.kind? (g.puffle.pos.step d) = g.board.kind? (g.puffle.pos.step d) := by
  rw [kind?_startMove d (step_ne g.puffle.pos d)]
  split
  · rename_i button
    rw [button]
    rfl
  · rfl

/-- Until the puffle lands, only its motion tells that it has set off. -/
theorem puffle_startMove (d : Direction) :
    (g.startMove d).puffle =
      { g.puffle with
        motion := some (.start g.puffle.pos (g.puffle.pos.step d) d g.rules.puffleMoveTicks) } := by
  have before : (((g.leave g.puffle.pos).pushAhead (g.puffle.pos.step d) d).pressAt
      (g.puffle.pos.step d)).setting = g.setting := by
    simp
  have rules := rules_of_setting before
  simp only [startMove_eq, depart, rules, puffle_pressAt, puffle_pushAhead, puffle_leave]

/-! ## A block lands -/

section
variable {i : Nat} {b : Block} {m : Motion}

/-- The cell on which a block comes to rest. -/
def landing (g : Game) (i : Nat) (b : Block) (m : Motion) : Coord :=
  ((g.setBlock i { b with motion := none }).blockExit? m.target).getD m.target

/-- A block that slides on keeps its direction. -/
theorem blocks_landBlock :
    ∃ momentum, (∀ d, momentum = some d → d = m.dir) ∧
      (g.landBlock i b m).blocks = g.blocks.set i ⟨g.landing i b m, none, momentum⟩ := by
  have onward : ∀ d, some m.dir = some d → d = m.dir := fun d same => (Option.some.inj same).symm
  simp only [landBlock, landing]
  cases (g.setBlock i { b with motion := none }).blockExit? m.target with
  | none =>
    refine ⟨_, ?_, List.set_set ..⟩
    split
    · exact onward
    · intro d none
      cases none
  | some c => exact ⟨_, onward, List.set_set ..⟩

theorem board_landBlock :
    (g.landBlock i b m).board =
      g.board.modify (g.landing i b m) fun t => { t with block := some i } := by
  simp only [landBlock, landing]
  cases (g.setBlock i { b with motion := none }).blockExit? m.target <;> rfl

@[simp] theorem melted_landBlock : (g.landBlock i b m).melted = g.melted := by
  simp only [landBlock]
  split <;> rfl

@[simp] theorem puffle_landBlock : (g.landBlock i b m).puffle = g.puffle := by
  simp only [landBlock]
  split <;> rfl

theorem kind?_landBlock (c : Coord) : (g.landBlock i b m).board.kind? c = g.board.kind? c := by
  rw [board_landBlock]
  exact kind?_modify (by simp)

theorem blockExit?_eq_some {c d : Coord} (h : g.blockExit? c = some d) :
    g.board.link? c = some d ∧ g.blockAt d = none ∧ g.puffleHolds d = false := by
  obtain ⟨t, ht, h⟩ := Option.bind_eq_some_iff.1 h
  split at h
  · obtain ⟨e, link, h⟩ := Option.bind_eq_some_iff.1 h
    split at h
    · rename_i free
      cases h
      simp only [Bool.and_eq_true, Option.isNone_iff_eq_none, Bool.not_eq_true'] at free
      exact ⟨Option.bind_eq_some_iff.2 ⟨t, ht, link⟩, free⟩
    · cases h
  · cases h

end

/-! ## The puffle's move ends -/

section
variable (c d : Coord)

@[simp] theorem puffle_takeBag : (g.takeBag c).puffle = g.puffle := by
  unfold takeBag
  split <;> rfl

theorem hasBag_takeBag (e : Coord) :
    (g.takeBag c).board.hasBag e = if e = c then false else g.board.hasBag e := by
  unfold takeBag
  split
  · exact hasBag_setBag
  · rename_i bare
    have bare : g.board.hasBag c = false := Bool.eq_false_iff.2 bare
    split
    · rename_i same
      rw [same, bare]
    · rfl

theorem hasBag_takeKey (e : Coord) : (g.takeKey c).board.hasBag e = g.board.hasBag e := by
  unfold takeKey
  split
  · exact hasBag_modify (by simp)
  · rfl

theorem isPlaid_takeBag (e : Coord) : (g.takeBag c).board.isPlaid e = g.board.isPlaid e := by
  unfold takeBag
  split
  · exact isPlaid_modify (by simp)
  · rfl

theorem isPlaid_takeKey (e : Coord) : (g.takeKey c).board.isPlaid e = g.board.isPlaid e := by
  unfold takeKey
  split
  · exact isPlaid_modify (by simp)
  · rfl

@[simp] theorem pos_takeKey : (g.takeKey c).puffle.pos = g.puffle.pos := by
  unfold takeKey
  split <;> rfl

@[simp] theorem motion_takeKey : (g.takeKey c).puffle.motion = g.puffle.motion := by
  unfold takeKey
  split <;> rfl

@[simp] theorem motion_arrive : (g.arrive c).puffle.motion = none := rfl

@[simp] theorem motion_openLock : (g.openLock c).puffle.motion = g.puffle.motion := rfl

@[simp] theorem motion_teleport : (g.teleport c d).puffle.motion = g.puffle.motion := rfl

@[simp] theorem puffle_awaitStuckCheck : g.awaitStuckCheck.puffle = g.puffle := rfl

@[simp] theorem board_awaitStuckCheck : g.awaitStuckCheck.board = g.board := rfl

theorem board_openLock : (g.openLock c).board = g.board.changeTile c .ice := rfl

theorem linksStay_openLock (h : g.board.LinksStay) : (g.openLock c).board.LinksStay :=
  h.changeTile

end

/-! ## A level is opened -/

/-- Everything is where the layout has it. -/
structure Opened (l : Level) (g : Game) : Prop where
  board : ∃ earned, g.board = openingBoard l earned
  blocks : g.blocks = l.blocks.map .new
  puffle : g.puffle = .new l.spawn
  melted : g.melted = 0

theorem opened_redraw {l : Level} (h : g.layout = some l) : g.redraw.Opened l := by
  unfold redraw
  rw [h]
  dsimp only
  rw [Board.drawOver_eq]
  exact ⟨⟨_, rfl⟩, rfl, rfl, rfl⟩

theorem opened_load (n : Nat) (l : Level) :
    (g.load n l).Opened (l.variant (g.flipCoin l).1) := by
  have drawn := opened_redraw (g := { g with
    random := (g.flipCoin l).2
    phase := .playing
    levelNumber := n
    layout := some (l.variant (g.flipCoin l).1)
    altApplied := (g.flipCoin l).1
    total := (l.variant (g.flipCoin l).1).totalTileCount
    timesFailed := 0 }) rfl
  exact ⟨drawn.board, drawn.blocks, drawn.puffle, drawn.melted⟩

theorem opened_resetLevel {l : Level} (playing : g.phase = .playing) (h : g.layout = some l) :
    g.resetLevel.Opened l := by
  have drawn := opened_redraw (g := { g with timesFailed := g.timesFailed + 1 }) h
  unfold resetLevel
  rw [if_neg (by simp [playing, h])]
  exact ⟨drawn.board, drawn.blocks, drawn.puffle, drawn.melted⟩

theorem resetLevel_cases (g : Game) : g.resetLevel = g ∨ ∃ l, g.resetLevel.Opened l := by
  by_cases playing : g.phase = .playing
  · cases layout : g.layout with
    | none => exact .inl (by simp [resetLevel, layout])
    | some l => exact .inr ⟨l, opened_resetLevel playing layout⟩
  · exact .inl (resetLevel_idle playing)

end IceMaze.Game
