import IceMaze.Proofs.Play.Landing
import IceMaze.Proofs.Play.Pace
import IceMaze.Proofs.Play.Payout
import IceMaze.Proofs.Play.Terrain

/-!
How long moves take.

The tick in which a move starts is the first that it counts, and it ends in the tick in which it has
counted as many as the rules say, whatever is held and whatever else moves meanwhile. A block that
slides on loses no tick between two moves. `exact_travel_times` says so for any inputs.
-/

namespace IceMaze

namespace Motion

/-- The move when so many ticks have passed. -/
def after (m : Motion) (ticks : Nat) : Motion := { m with elapsed := ticks }

variable {m : Motion} {k : Nat}

theorem after_zero (fresh : m.elapsed = 0) : m.after 0 = m := by rw [after, ← fresh]

theorem step_after (going : k < m.duration) : (m.after k).step = m.after (k + 1) :=
  step_of_going going

theorem isDone_step_after (going : k < m.duration) :
    (m.after k).step.isDone = decide (m.duration ≤ k + 1) := by
  rw [step_after going]
  rfl

end Motion

namespace Game

variable {g : Game} {input : Input} {i : Nat} {b : Block} {m : Motion}

/-- The game in a tick when the puffle has set off, if it does. -/
def steered (g : Game) (input : Input) : Game :=
  { g with events := [], ticks := g.ticks + 1 }.steer input

theorem turnOf_eq (g : Game) (input : Input) (i : Nat) :
    g.turnOf input i = ((g.steered input).advanceUpTo i).restartBlock i := rfl

theorem steered_of_moving (moves : g.puffle.motion = some m) :
    g.steered input = { g with events := [], ticks := g.ticks + 1 } := by
  rw [steered, steer, if_pos (by simp [Puffle.isMoving, moves])]

/-- The puffle stays as it is, or it sets off in a direction that is held. -/
theorem steered_cases (g : Game) (input : Input) :
    g.steered input = { g with events := [], ticks := g.ticks + 1 } ∨
    ∃ d, input.held d = true ∧ g.puffle.motion = none ∧ g.canMove d = true ∧
      g.steered input = { g with events := [], ticks := g.ticks + 1 }.startMove d := by
  obtain idle | ⟨d, held, started⟩ :=
    { g with events := [], ticks := g.ticks + 1 }.steer_cases input
  · exact .inl idle
  · obtain ⟨⟨_, rests, free⟩, moved⟩ := attemptMove_eq_some.1 started
    exact .inr ⟨d, held, rests, free, moved.symm⟩

theorem puffle_approach (g : Game) (input : Input) :
    (g.approach input).puffle = (g.steered input).puffle := (puffle_advanceBlocks _).1

theorem phase_approach (playing : g.phase = .playing) (input : Input) :
    (g.approach input).phase = .playing :=
  (phase_of_setting (g.setting_approach input)).trans playing

/-! ## The puffle on its way -/

/-- While the puffle is on its way, a tick does nothing after the blocks have moved. -/
theorem tick_of_going (playing : g.phase = .playing) (going : input.reset = false)
    (moves : (g.approach input).puffle.motion = some m) (onward : m.step.isDone = false) :
    g.tick input = { g.approach input with
      puffle := { (g.approach input).puffle with motion := some m.step } } := by
  rw [tick_eq playing going, beforeCheck, advancePuffle_of_going moves onward]

theorem tick_of_landing (playing : g.phase = .playing) (going : input.reset = false)
    (moves : (g.approach input).puffle.motion = some m) (done : m.step.isDone = true) :
    g.tick input = (g.approach input).land m.target := by
  rw [tick_eq playing going, beforeCheck, advancePuffle_of_done moves done]

theorem isOfPlay_of_mem_approach {e : Event} (told : e ∈ (g.approach input).events) :
    e.isOfPlay = true := by
  obtain ⟨es, added, plays⟩ := PlaysOn.approach g input
  rw [added] at told
  exact plays.told e told

/-! ## Blocks that the puffle pushes -/

/-- What the puffle leaves behind does not change what is ahead of it. -/
theorem blockAt_leave_of_ne {c d : Coord} (away : d ≠ c) : (g.leave c).blockAt d = g.blockAt d := by
  have tile : (g.leave c).board.get? d = g.board.get? d := by
    rw [board_leave]
    split
    · rw [Board.get?_changeTile, if_neg fun here => away here.1]
    · rfl
  unfold blockAt
  rw [tile, blocks_leave]

/-- A move that starts changes no block but one at rest, which it pushes. -/
theorem getElem?_startMove {d : Direction} (free : g.canMove d = true)
    (here : g.blocks[i]? = some b) :
    (g.startMove d).blocks[i]? = some b ∨
      b.motion = none ∧ (g.startMove d).blocks[i]? = some (g.pushed b d) := by
  have ahead := blockAt_leave_of_ne (g := g) (step_ne g.puffle.pos d)
  have rules : (g.leave g.puffle.pos).rules = g.rules :=
    rules_of_setting (setting_leave g g.puffle.pos)
  have blocks : (g.startMove d).blocks =
      ((g.leave g.puffle.pos).pushAhead (g.puffle.pos.step d) d).blocks := blocks_pressAt _
  rw [blocks, pushAhead, ahead]
  cases there : g.blockAt (g.puffle.pos.step d) with
  | none => exact .inl ((congrArg (·[i]?) (blocks_leave _)).trans here)
  | some j =>
    obtain ⟨a, own, rests, _⟩ := canPush_of_canMove free there
    dsimp only
    rw [blocks_pushBlock d (by rw [blocks_leave, own]), blocks_leave]
    have pushed : (g.leave g.puffle.pos).pushed a d = g.pushed a d := by
      rw [Game.pushed, rules, Game.pushed]
    rw [pushed]
    by_cases same : j = i
    · subst same
      cases own.symm.trans here
      have bound := (List.getElem?_eq_some_iff.1 here).1
      exact .inr ⟨rests, by simp [bound]⟩
    · exact .inl ((List.getElem?_set_ne same).trans here)

theorem getElem?_steered (input : Input) (here : g.blocks[i]? = some b) :
    (g.steered input).blocks[i]? = some b ∨
      b.motion = none ∧ ∃ d, (g.steered input).blocks[i]? = some (g.pushed b d) := by
  obtain idle | ⟨d, _, _, free, started⟩ := g.steered_cases input
  · rw [idle]
    exact .inl here
  · rw [started]
    have free' : { g with events := [], ticks := g.ticks + 1 }.canMove d = true := free
    obtain kept | ⟨rests, pushed⟩ := getElem?_startMove free' here
    · exact .inl kept
    · exact .inr ⟨rests, d, pushed⟩

/-! ## Blocks that slide on -/

/-- Momentum is in nobody's way. -/
theorem canPush_dropMomentum (here : g.blocks[i]? = some b) (c : Coord) (d : Direction) :
    (g.setBlock i { b with momentum := none }).canPush c d = g.canPush c d := by
  have targets (c : Coord) : (g.blocks.set i { b with momentum := none }).findIdx? (·.target = c) =
      g.blocks.findIdx? (·.target = c) := by
    have mapped : (g.blocks.set i { b with momentum := none }).map Block.target =
        g.blocks.map Block.target := by
      rw [List.map_set]
      refine List.ext_getElem? fun j => ?_
      rw [List.getElem?_set]
      split
      · rename_i same
        subst same
        rw [List.length_map, if_pos (List.getElem?_eq_some_iff.1 here).1, List.getElem?_map, here]
        rfl
      · rfl
    have found (bs : List Block) : bs.findIdx? (·.target = c) =
        (bs.map Block.target).findIdx? (· = c) := by
      rw [List.findIdx?_map]
      rfl
    rw [found, mapped, ← found]
  have same (c : Coord) : (g.setBlock i { b with momentum := none }).blockAt c = g.blockAt c := by
    unfold blockAt
    rw [setBlock, targets]
  unfold canPush
  simp only [same]
  rfl

/-- A block with momentum sets off again if it can, and loses its momentum in any case. -/
theorem getElem?_restartBlock {d : Direction} (here : g.blocks[i]? = some b)
    (rests : b.motion = none) (momentum : b.momentum = some d) :
    (g.restartBlock i).blocks[i]? =
      some (if g.canPush b.pos d = true then g.pushed b d else ⟨b.pos, none, none⟩) := by
  obtain ⟨c, motion, onward⟩ := b
  cases rests
  cases momentum
  have dropped := getElem?_setBlock (c := ⟨c, none, none⟩) here
  have free := canPush_dropMomentum here c d
  unfold restartBlock
  simp only [here, Block.isMoving, Option.isSome_none, Bool.false_eq_true, if_false]
  rw [free]
  split
  · rw [blocks_pushBlock d dropped]
    exact getElem?_setBlock dropped
  · exact dropped

theorem restartBlock_of_moving (here : g.blocks[i]? = some b) (moves : b.motion = some m) :
    g.restartBlock i = g := by
  simp [restartBlock, here, Block.isMoving, moves]

theorem restartBlock_of_calm (here : g.blocks[i]? = some b) (calm : b.momentum = none) :
    g.restartBlock i = g := by
  simp [restartBlock, here, calm]

/-! ## The turn of a block -/

theorem rules_advanceUpTo (g : Game) (n : Nat) : (g.advanceUpTo n).rules = g.rules :=
  rules_of_setting (PlaysOn.advanceAll g _).setting

theorem rules_steered (g : Game) (input : Input) : (g.steered input).rules = g.rules :=
  rules_of_setting (setting_steer _ input)

theorem turnOf_of_moving (here : (g.steered input).blocks[i]? = some b)
    (moves : b.motion = some m) : (g.turnOf input i).blocks[i]? = some b := by
  have before := (getElem?_advanceUpTo_of_le (g := g.steered input) (Nat.le_refl i)).trans here
  rw [turnOf_eq, restartBlock_of_moving before moves, before]

/-- A block on its way is as it was when its turn comes. -/
theorem turnOf_of_motion (here : g.blocks[i]? = some b) (moves : b.motion = some m) :
    (g.turnOf input i).blocks[i]? = some b := by
  obtain kept | ⟨rests, _⟩ := getElem?_steered input here
  · exact turnOf_of_moving kept moves
  · cases rests.symm.trans moves

/-- A block that moves in its turn, but did not before, has been pushed from its cell, or has set
off from it again. -/
theorem turnOf_of_rest {a : Block} (before : g.blocks[i]? = some a) (rests : a.motion = none)
    (here : (g.turnOf input i).blocks[i]? = some b) (moves : b.motion = some m) :
    ∃ d, m = .start a.pos (a.pos.step d) d g.rules.blockMoveTicks ∧ b = ⟨a.pos, some m, none⟩ := by
  have pushed {f : Game} {d : Direction} (rules : f.rules = g.rules) (same : b = f.pushed a d) :
      ∃ d, m = .start a.pos (a.pos.step d) d g.rules.blockMoveTicks ∧
        b = ⟨a.pos, some m, none⟩ := by
    rw [Game.pushed, rules] at same
    subst same
    exact ⟨d, (Option.some.inj moves).symm, by rw [← moves]⟩
  obtain kept | ⟨_, d, sent⟩ := getElem?_steered input before
  · have now := (getElem?_advanceUpTo_of_le (g := g.steered input) (Nat.le_refl i)).trans kept
    have rules : ((g.steered input).advanceUpTo i).rules = g.rules := by
      rw [rules_advanceUpTo, rules_steered]
    rw [turnOf_eq] at here
    cases momentum : a.momentum with
    | none =>
      rw [restartBlock_of_calm now momentum, now] at here
      cases here
      cases rests.symm.trans moves
    | some d =>
      rw [getElem?_restartBlock now rests momentum] at here
      split at here
      · exact pushed rules (Option.some.inj here).symm
      · cases here
        cases moves
  · exact pushed rfl (Option.some.inj (here.symm.trans (turnOf_of_moving sent rfl)))

/-! ## Blocks on their way -/

/-- A goal that is reached is told. -/
theorem reachesGoal_eq_false (playing : g.phase = .playing) (going : input.reset = false)
    (untold : ∀ n solved points, .levelCompleted n solved points ∉ (g.tick input).events) :
    g.reachesGoal input = false := by
  refine Bool.eq_false_iff.2 fun reaches => ?_
  obtain ⟨h, _, gone⟩ := beforeCheck_of_reachesGoal reaches
  obtain ⟨next, _, events⟩ := h.events_goToNextLevel
  apply untold h.levelNumber (h.melted = h.total) (h.pointsInLevel + h.bonus)
  rw [tick_eq playing going, gone, checkStuck_goToNextLevel, events]
  simp

/-- In a tick that neither completes the level nor resets it, nothing happens to the blocks after
they have had their turns. -/
theorem blocks_tick (playing : g.phase = .playing) (going : input.reset = false)
    (short : g.reachesGoal input = false) (unstuck : ∀ c, .stuck c ∉ (g.tick input).events) :
    (g.tick input).phase = .playing ∧ (g.tick input).blocks = (g.approach input).blocks := by
  have advance := (g.approach input).advance_advancePuffle
  have off_goal := fun m => short_of_goal (m := m) playing going short
  obtain ⟨blocks, _⟩ := advance.bodies off_goal
  have phase : (g.beforeCheck input).phase = .playing := by
    obtain same | ⟨m, moves, done, goal, _⟩ := advance.setting_cases
    · exact (phase_of_setting same).trans (phase_approach playing input)
    · exact absurd goal (off_goal m moves done)
  rw [tick_eq playing going] at unstuck ⊢
  obtain ⟨_, same⟩ | ⟨_, _, _, ⟨_, same⟩ | ⟨_, same⟩⟩ := (g.beforeCheck input).checkStuck_cases
  · rw [same]
    exact ⟨phase, blocks⟩
  · rw [same]
    exact ⟨phase, blocks⟩
  · refine absurd ?_ (unstuck (g.beforeCheck input).puffle.pos)
    rw [same, events_resetLevel, events_reportStuck]
    simp

/-- As long as a block is under way or about to be, nobody is found stuck. -/
theorem unstuck_of_busy (playing : g.phase = .playing) (going : input.reset = false)
    (short : g.reachesGoal input = false) (here : (g.approach input).blocks[i]? = some b)
    (busy : b.motion ≠ none ∨ b.momentum ≠ none) (c : Coord) :
    .stuck c ∉ (g.tick input).events := by
  intro told
  obtain ⟨_, _, _, settled, _⟩ := tick_of_stuck told
  obtain ⟨blocks, _⟩ := (g.approach input).advance_advancePuffle.bodies
    fun m => short_of_goal playing going short
  obtain ⟨motion, momentum⟩ := (isSettled_iff.1 settled).2 b
    (List.mem_of_getElem? ((congrArg (·[i]?) blocks).trans here))
  obtain moves | slides := busy
  · exact moves motion
  · exact slides momentum

/-! ## One tick of a move -/

theorem puffle_tick {p : Puffle} {k : Nat} (playing : g.phase = .playing)
    (going : input.reset = false)
    (puffle : (g.approach input).puffle = { p with motion := some (m.after k) })
    (early : k + 1 < m.duration) :
    (g.tick input).phase = .playing ∧
      (g.tick input).puffle = { p with motion := some (m.after (k + 1)) } ∧
      g.landsOn? input = none ∧ (g.tick input).events = (g.approach input).events := by
  have moves : (g.approach input).puffle.motion = some (m.after k) := by rw [puffle]
  have passes := Motion.step_after (Nat.lt_of_succ_lt early)
  have onward : (m.after k).step.isDone = false := by
    rw [Motion.isDone_step_after (Nat.lt_of_succ_lt early)]
    simpa using early
  refine ⟨?_, ?_, ?_, ?_⟩
  · rw [tick_of_going playing going moves onward]
    exact phase_approach playing input
  · rw [tick_of_going playing going moves onward, puffle, passes]
  · simp [landsOn?, moves, onward]
  · rw [tick_of_going playing going moves onward]

theorem block_tick {k : Nat} (playing : g.phase = .playing) (going : input.reset = false)
    (short : g.reachesGoal input = false)
    (here : (g.turnOf input i).blocks[i]? = some { b with motion := some (m.after k) })
    (early : k + 1 < m.duration) :
    (g.tick input).phase = .playing ∧
      (g.tick input).blocks[i]? = some { b with motion := some (m.after (k + 1)) } := by
  have passes := Motion.step_after (Nat.lt_of_succ_lt early)
  have onward : (m.after k).step.isDone = false := by
    rw [Motion.isDone_step_after (Nat.lt_of_succ_lt early)]
    simpa using early
  have turned : ((g.turnOf input i).stepBlock i).blocks[i]? =
      some { b with motion := some (m.after (k + 1)) } := by
    rw [passes] at onward
    unfold stepBlock
    simp only [here, passes, onward, Bool.false_eq_true, if_false]
    exact getElem?_setBlock here
  have approached := (turn_in_approach playing here).2.trans turned
  obtain ⟨playing', blocks⟩ := blocks_tick playing going short
    (unstuck_of_busy playing going short approached (.inl nofun))
  exact ⟨playing', blocks ▸ approached⟩

/-- Where a block rests that has landed in its turn. -/
theorem approach_of_landing {k : Nat} (playing : g.phase = .playing)
    (here : (g.turnOf input i).blocks[i]? = some { b with motion := some (m.after k) })
    (last : k + 1 = m.duration) : ∃ c momentum,
    (g.turnOf input i).stepBlock i =
      (g.turnOf input i).landBlock i { b with motion := some (m.after k) } (m.after (k + 1)) ∧
    (g.approach input).blocks[i]? = some ⟨c, none, momentum⟩ := by
  have passes := Motion.step_after (m := m) (k := k) (by omega)
  have done : (m.after k).step.isDone = true := by
    rw [Motion.isDone_step_after (by omega)]
    simpa using last.ge
  have landed := stepBlock_of_done here rfl done
  rw [passes] at landed
  obtain ⟨momentum, _, blocks⟩ := blocks_landBlock (g := g.turnOf input i) (i := i)
    (b := { b with motion := some (m.after k) }) (m := m.after (k + 1))
  refine ⟨(g.turnOf input i).landing i { b with motion := some (m.after k) } (m.after (k + 1)),
    momentum, landed, ?_⟩
  rw [(turn_in_approach playing here).2, landed, blocks]
  simp [(List.getElem?_eq_some_iff.1 here).1]

end Game

/-! ## Runs -/

namespace Run

/-- The run after so many of the inputs. -/
def played (r : Run) (inputs : Nat → Input) : Nat → Run
  | 0 => r
  | n + 1 => (r.played inputs n).tick (inputs n)

variable {r : Run} {inputs : Nat → Input} {ticks i : Nat} {b : Block} {m : Motion}

theorem game_played_succ (r : Run) (inputs : Nat → Input) (n : Nat) :
    (r.played inputs (n + 1)).game = (r.played inputs n).game.tick (inputs n) := rfl

/-- The next tick, with this input, does not complete the level. -/
def Uncompleted (r : Run) (input : Input) : Prop :=
  ∀ n solved points, .levelCompleted n solved points ∉ (r.game.tick input).events

/-- A move of the puffle that starts in the first tick and ends in the last of so many. -/
structure PuffleTravels (r : Run) (inputs : Nat → Input) (m : Motion) (ticks : Nat) : Prop where
  /-- The puffle stays on its cell, and the move counts the ticks. -/
  going : ∀ k, 0 < k → k < ticks → (r.played inputs k).game.phase = .playing ∧
    (r.played inputs k).game.puffle = { r.game.puffle with motion := some (m.after k) }
  uneventful : ∀ k, k + 1 < ticks → (r.played inputs k).game.landsOn? (inputs k) = none ∧
    (∀ c, .stuck c ∉ ((r.played inputs k).game.tick (inputs k)).events) ∧
    (r.played inputs k).Uncompleted (inputs k)
  lands : ∀ k, k + 1 = ticks → (r.played inputs k).game.landsOn? (inputs k) = some m.target ∧
    (r.played inputs k).game.tick (inputs k) =
      ((r.played inputs k).game.approach (inputs k)).land m.target

/-- Before each tick of the move but the first, and after the blocks have moved in it, the puffle is
on its way. -/
theorem puffle_played (playing : r.game.phase = .playing)
    (going : ∀ k < m.duration, (inputs k).reset = false) (fresh : m.elapsed = 0)
    (starts : (r.game.steered (inputs 0)).puffle = { r.game.puffle with motion := some m }) :
    ∀ k < m.duration, (r.played inputs k).game.phase = .playing ∧
      ((r.played inputs k).game.approach (inputs k)).puffle =
        { r.game.puffle with motion := some (m.after k) } := by
  intro k early
  induction k with
  | zero =>
    refine ⟨playing, ?_⟩
    rw [Game.puffle_approach, Motion.after_zero fresh]
    exact starts
  | succ k ih =>
    obtain ⟨playing', puffle⟩ := ih (Nat.lt_of_succ_lt early)
    obtain ⟨later, walks, _⟩ :=
      Game.puffle_tick playing' (going k (Nat.lt_of_succ_lt early)) puffle early
    refine ⟨later, ?_⟩
    rw [Game.puffle_approach, game_played_succ, Game.steered_of_moving (by rw [walks])]
    exact walks

theorem puffleTravels (playing : r.game.phase = .playing)
    (going : ∀ k < m.duration, (inputs k).reset = false) (fresh : m.elapsed = 0)
    (starts : (r.game.steered (inputs 0)).puffle = { r.game.puffle with motion := some m }) :
    r.PuffleTravels inputs m m.duration := by
  have flight := puffle_played playing going fresh starts
  refine ⟨fun k begun early => ?_, fun k early => ?_, fun k last => ?_⟩
  · obtain ⟨k, rfl⟩ := Nat.exists_eq_succ_of_ne_zero begun.ne'
    obtain ⟨playing', puffle⟩ := flight k (Nat.lt_of_succ_lt early)
    obtain ⟨later, walks, _⟩ :=
      Game.puffle_tick playing' (going k (Nat.lt_of_succ_lt early)) puffle early
    exact ⟨later, walks⟩
  · obtain ⟨playing', puffle⟩ := flight k (Nat.lt_of_succ_lt early)
    obtain ⟨_, _, lands, events⟩ :=
      Game.puffle_tick playing' (going k (Nat.lt_of_succ_lt early)) puffle early
    refine ⟨lands, fun c told => ?_, fun n solved points told => ?_⟩
    · cases Game.isOfPlay_of_mem_approach (events ▸ told)
    · cases Game.isOfPlay_of_mem_approach (events ▸ told)
  · obtain ⟨playing', puffle⟩ := flight k (by omega)
    have moves : ((r.played inputs k).game.approach (inputs k)).puffle.motion =
        some (m.after k) := by rw [puffle]
    have done : (m.after k).step.isDone = true := by
      rw [Motion.isDone_step_after (by omega)]
      simpa using last.ge
    have going' := going k (by omega)
    exact ⟨Game.landsOn?_eq_some.2 ⟨⟨playing', going'⟩, _, moves, done, rfl⟩,
      Game.tick_of_landing (m := m.after k) playing' going' moves done⟩

/-- A move of a block that starts in the first tick and ends in the last of so many. -/
structure BlockTravels (r : Run) (inputs : Nat → Input) (i : Nat) (b : Block) (m : Motion)
    (ticks : Nat) : Prop where
  going : ∀ k, 0 < k → k < ticks → (r.played inputs k).game.phase = .playing ∧
    (r.played inputs k).game.blocks[i]? = some { b with motion := some (m.after k) }
  /-- The block lands in its turn, and rests when all blocks have had theirs. If it is to slide on,
  it still is when the next tick begins. -/
  lands : ∀ k, k + 1 = ticks → ∃ c momentum,
    ((r.played inputs k).game.turnOf (inputs k) i).stepBlock i =
      ((r.played inputs k).game.turnOf (inputs k) i).landBlock i
        { b with motion := some (m.after k) } (m.after ticks) ∧
    ((r.played inputs k).game.approach (inputs k)).blocks[i]? = some ⟨c, none, momentum⟩ ∧
    (momentum ≠ none → (r.played inputs k).Uncompleted (inputs k) →
      (r.played inputs ticks).game.phase = .playing ∧
      (r.played inputs ticks).game.blocks[i]? = some ⟨c, none, momentum⟩)

/-- In its turn in each tick of the move, the block is on its way. -/
theorem block_played (playing : r.game.phase = .playing)
    (going : ∀ k < m.duration, (inputs k).reset = false)
    (short : ∀ k, k + 1 < m.duration → (r.played inputs k).Uncompleted (inputs k))
    (fresh : m.elapsed = 0) (moves : b.motion = some m)
    (starts : (r.game.turnOf (inputs 0) i).blocks[i]? = some b) :
    ∀ k < m.duration, (r.played inputs k).game.phase = .playing ∧
      ((r.played inputs k).game.turnOf (inputs k) i).blocks[i]? =
        some { b with motion := some (m.after k) } := by
  intro k early
  induction k with
  | zero =>
    refine ⟨playing, ?_⟩
    rw [Motion.after_zero fresh, ← moves]
    exact starts
  | succ k ih =>
    have going' := going k (Nat.lt_of_succ_lt early)
    obtain ⟨playing', here⟩ := ih (Nat.lt_of_succ_lt early)
    have off_goal := Game.reachesGoal_eq_false playing' going' (short k early)
    obtain ⟨later, there⟩ := Game.block_tick playing' going' off_goal here early
    exact ⟨later, Game.turnOf_of_motion there rfl⟩

theorem blockTravels (playing : r.game.phase = .playing)
    (going : ∀ k < m.duration, (inputs k).reset = false)
    (short : ∀ k, k + 1 < m.duration → (r.played inputs k).Uncompleted (inputs k))
    (fresh : m.elapsed = 0) (moves : b.motion = some m)
    (starts : (r.game.turnOf (inputs 0) i).blocks[i]? = some b) :
    r.BlockTravels inputs i b m m.duration := by
  have slide := block_played playing going short fresh moves starts
  refine ⟨fun k begun early => ?_, fun k last => ?_⟩
  · obtain ⟨k, rfl⟩ := Nat.exists_eq_succ_of_ne_zero begun.ne'
    have going' := going k (Nat.lt_of_succ_lt early)
    obtain ⟨playing', here⟩ := slide k (Nat.lt_of_succ_lt early)
    have off_goal := Game.reachesGoal_eq_false playing' going' (short k early)
    exact Game.block_tick playing' going' off_goal here early
  · obtain ⟨playing', here⟩ := slide k (by omega)
    obtain ⟨c, momentum, landed, rests⟩ := Game.approach_of_landing playing' here last
    refine ⟨c, momentum, last ▸ landed, rests, fun onward untold => ?_⟩
    have going' := going k (by omega)
    have off_goal := Game.reachesGoal_eq_false playing' going' untold
    obtain ⟨later, blocks⟩ := Game.blocks_tick playing' going' off_goal
      (Game.unstuck_of_busy playing' going' off_goal rests (.inr onward))
    rw [← last]
    exact ⟨later, blocks ▸ rests⟩

end Run

section
variable {levels : List Level} {rules : Rules} {seed : UInt64} {g₀ : Game} {r : Run}

/-- Moves take the ticks that the rules give them, the tick in which they start being the first,
whatever is held meanwhile. On its way the puffle is neither found stuck nor completes the level. A
block that has landed with momentum, and that the puffle does not push, sets off again in the next
tick if it can when its turn comes, and rests for good if it cannot. -/
theorem exact_travel_times (new : Game.new levels rules seed = .ok g₀) (h : Run.Reachable g₀ r)
    (playing : r.game.phase = .playing) (pace : 1 ≤ rules.puffleMoveTicks)
    (block_pace : 1 ≤ rules.blockMoveTicks) (inputs : Nat → Input) :
    (∀ m, r.game.puffle.motion = none → (r.game.steered (inputs 0)).puffle.motion = some m →
      (∀ k < rules.puffleMoveTicks, (inputs k).reset = false) →
      (∃ d, (inputs 0).held d = true ∧ r.game.canMove d = true ∧
        m = .start r.game.puffle.pos (r.game.puffle.pos.step d) d rules.puffleMoveTicks) ∧
      r.PuffleTravels inputs m rules.puffleMoveTicks) ∧
    (∀ i a b m, r.game.blocks[i]? = some a → a.motion = none →
      (r.game.turnOf (inputs 0) i).blocks[i]? = some b → b.motion = some m →
      (∀ k < rules.blockMoveTicks, (inputs k).reset = false) →
      (∀ k, k + 1 < rules.blockMoveTicks → (r.played inputs k).Uncompleted (inputs k)) →
      (∃ d, m = .start a.pos (a.pos.step d) d rules.blockMoveTicks ∧ b = ⟨a.pos, some m, none⟩) ∧
      r.BlockTravels inputs i b m rules.blockMoveTicks) ∧
    (∀ i b d, r.game.blocks[i]? = some b → b.motion = none → b.momentum = some d →
      (r.game.steered (inputs 0)).blocks[i]? = some b →
      let reached := (r.game.steered (inputs 0)).advanceUpTo i
      (reached.canPush b.pos d = true → (r.game.turnOf (inputs 0) i).blocks[i]? =
        some ⟨b.pos, some (.start b.pos (b.pos.step d) d rules.blockMoveTicks), none⟩) ∧
      (reached.canPush b.pos d = false →
        (r.game.approach (inputs 0)).blocks[i]? = some ⟨b.pos, none, none⟩ ∧
        ((inputs 0).reset = false → r.Uncompleted (inputs 0) →
          (∀ c, .stuck c ∉ (r.game.tick (inputs 0)).events) →
          (r.game.tick (inputs 0)).blocks[i]? = some ⟨b.pos, none, none⟩))) := by
  have rules_eq : r.game.rules = rules := h.rules_eq new
  have length {c e : Coord} {d : Direction} {ticks : Nat} (pos : 1 ≤ ticks) :
      (Motion.start c e d ticks).duration = ticks := Nat.max_eq_left pos
  refine ⟨fun m rests starts going => ?_, fun i a b m before rests here moves going short => ?_,
    fun i b d _ rests momentum unpushed => ?_⟩
  · obtain idle | ⟨d, held, _, free, started⟩ := r.game.steered_cases (inputs 0)
    · rw [idle] at starts
      cases rests.symm.trans starts
    · have puffle := Game.puffle_startMove
        (g := { r.game with events := [], ticks := r.game.ticks + 1 }) d
      rw [← started] at puffle
      rw [puffle] at starts
      have start : m = .start r.game.puffle.pos (r.game.puffle.pos.step d) d
          rules.puffleMoveTicks := rules_eq ▸ (Option.some.inj starts).symm
      have duration : m.duration = rules.puffleMoveTicks := by rw [start, length pace]
      refine ⟨⟨d, held, free, start⟩, ?_⟩
      rw [← duration] at going ⊢
      exact Run.puffleTravels playing going (by rw [start]; rfl) (by rw [puffle, ← starts])
  · obtain ⟨d, start, same⟩ := Game.turnOf_of_rest before rests here moves
    rw [rules_eq] at start
    have duration : m.duration = rules.blockMoveTicks := by rw [start, length block_pace]
    refine ⟨⟨d, start, same⟩, ?_⟩
    rw [← duration] at going short ⊢
    exact Run.blockTravels playing going short (by rw [start]; rfl) moves here
  · intro reached
    have now : reached.blocks[i]? = some b :=
      (Game.getElem?_advanceUpTo_of_le (Nat.le_refl i)).trans unpushed
    have rules_now : reached.rules = rules := by
      rw [Game.rules_advanceUpTo, Game.rules_steered, rules_eq]
    have turned := Game.getElem?_restartBlock now rests momentum
    rw [← Game.turnOf_eq] at turned
    refine ⟨fun free => ?_, fun barred => ?_⟩
    · rw [turned, if_pos free, Game.pushed, rules_now]
    · rw [if_neg (by simp [barred])] at turned
      have rests : (r.game.approach (inputs 0)).blocks[i]? = some ⟨b.pos, none, none⟩ := by
        rw [(Game.turn_in_approach playing turned).2]
        simp [Game.stepBlock, turned]
      refine ⟨rests, fun going untold unstuck => ?_⟩
      have off_goal := Game.reachesGoal_eq_false playing going untold
      rw [(Game.blocks_tick playing going off_goal unstuck).2, rests]

end

/-- A block before the puffle, and room for it to slide. -/
def gallery : Level where
  origin := .zero
  spawn := .zero
  tiles := .filled 5 1 .empty
  keys := []
  blocks := [⟨1, 0⟩]
  bag := none
  patches := []

/-- The puffle takes four ticks to the cell of the block. The block takes three ticks to the next
cell, and sets off again in the fourth. -/
theorem exact_travel_times_in_gallery :
    ∃ g₀ r, Game.new [gallery] Rules.standard 0 = .ok g₀ ∧ Run.Reachable g₀ r ∧
      r.PuffleTravels (fun _ => .hold .right) (.start ⟨0, 0⟩ ⟨1, 0⟩ .right 4) 4 ∧
      r.BlockTravels (fun _ => .hold .right) 0
        ⟨⟨1, 0⟩, some (.start ⟨1, 0⟩ ⟨2, 0⟩ .right 3), none⟩ (.start ⟨1, 0⟩ ⟨2, 0⟩ .right 3) 3 ∧
      ((r.played (fun _ => .hold .right) 3).game.turnOf .idle 0).blocks[0]? =
        some ⟨⟨2, 0⟩, some (.start ⟨2, 0⟩ ⟨3, 0⟩ .right 3), none⟩ := by
  obtain ⟨g₀, new⟩ : ∃ g₀, Game.new [gallery] Rules.standard 0 = .ok g₀ := ⟨_, rfl⟩
  let inputs : Nat → Input := fun _ => .hold .right
  let r := [.start 1].foldl Run.act (.start g₀)
  have reached : Run.Reachable g₀ r := .actions _
  have reached' : Run.Reachable g₀ (r.played inputs 3) :=
    .actions (.start 1 :: List.replicate 3 (.tick (.hold .right)))
  have begun : r.game.phase = .playing ∧ r.game.puffle.motion = none ∧
      (r.game.steered (inputs 0)).puffle.motion = some (.start ⟨0, 0⟩ ⟨1, 0⟩ .right 4) ∧
      r.game.blocks[0]? = some ⟨⟨1, 0⟩, none, none⟩ ∧
      (r.game.turnOf (inputs 0) 0).blocks[0]? =
        some ⟨⟨1, 0⟩, some (.start ⟨1, 0⟩ ⟨2, 0⟩ .right 3), none⟩ := by
    cases new
    decide +kernel
  have quiet : ∀ k < 3, ∀ e ∈ ((r.played inputs k).game.tick (inputs k)).events,
      e.completion? = none := by
    cases new
    decide +kernel
  have landed : (r.played inputs 3).game.phase = .playing ∧
      (r.played inputs 3).game.blocks[0]? = some ⟨⟨2, 0⟩, none, some .right⟩ ∧
      ((r.played inputs 3).game.steered .idle).blocks[0]? =
        some ⟨⟨2, 0⟩, none, some .right⟩ ∧
      ((r.played inputs 3).game.steered .idle).canPush ⟨2, 0⟩ .right = true := by
    cases new
    decide +kernel
  obtain ⟨playing, rests, starts, block, pushed⟩ := begun
  obtain ⟨puffle, blocks, _⟩ :=
    exact_travel_times new reached playing (by decide) (by decide) inputs
  obtain ⟨playing', block', unpushed, free⟩ := landed
  obtain ⟨_, _, onward⟩ :=
    exact_travel_times new reached' playing' (by decide) (by decide) fun _ => .idle
  have untold : ∀ k, k + 1 < 3 → (r.played inputs k).Uncompleted (inputs k) := by
    intro k early n solved points told
    cases quiet k (by omega) _ told
  refine ⟨g₀, r, new, reached, (puffle _ rests starts fun _ _ => rfl).2,
    (blocks 0 _ _ _ block rfl pushed rfl (fun _ _ => rfl) untold).2, ?_⟩
  exact (onward 0 _ _ block' rfl rfl unpushed).1 free

end IceMaze
