import IceMaze.Proofs.Play.DeadEnds
import IceMaze.Proofs.Play.Occupancy
import IceMaze.Proofs.Play.Teleporters

/-!
How long it takes until everything rests.

A block slides on in one direction until something stops it, at the edge of the board at the
latest. `Block.due` counts the ticks that this can take, and each tick takes one off
(`due_advanceBlock`). A teleporter would set the block back, so the bound is for boards on which no
teleporter is linked.
-/

namespace IceMaze

/-! ## Distances -/

/-- The number of cells between a cell and the edge of the board. -/
def Coord.room (c : Coord) : Direction → Nat
  | .up => c.y.toNat
  | .down => (boardHeight - 1 - c.y).toNat
  | .left => c.x.toNat
  | .right => (boardWidth - 1 - c.x).toNat

theorem Coord.room_step {c : Coord} {d : Direction} (inside : c.OnBoard)
    (next : (c.step d).OnBoard) : (c.step d).room d + 1 = c.room d := by
  rw [Coord.onBoard_iff] at inside next
  cases d <;>
    simp only [Coord.room, Coord.step, Direction.delta, boardWidth, boardHeight] at * <;> omega

theorem Coord.room_le {c : Coord} (inside : c.OnBoard) (d : Direction) : c.room d ≤ 18 := by
  rw [Coord.onBoard_iff] at inside
  cases d <;> simp only [Coord.room, boardWidth, boardHeight] <;> omega

namespace Motion

/-- The ticks until the move ends. -/
def left (m : Motion) : Nat := m.duration - m.elapsed

/-- The move is on its way, and was to take so many ticks. -/
structure Timed (m : Motion) (ticks : Nat) : Prop where
  going : m.elapsed < m.duration
  duration : m.duration = max ticks 1

variable {m : Motion} {ticks : Nat}

theorem Timed.start (source target : Coord) (d : Direction) (ticks : Nat) :
    (Motion.start source target d ticks).Timed ticks := by
  refine ⟨?_, rfl⟩
  simp only [Motion.start]
  omega

theorem step_of_going (going : m.elapsed < m.duration) :
    m.step = { m with elapsed := m.elapsed + 1 } := by
  simp [step, isDone, going]

theorem Timed.step (h : m.Timed ticks) (going : m.step.isDone = false) : m.step.Timed ticks := by
  simp only [isDone, decide_eq_false_iff_not, Nat.not_le] at going
  refine ⟨going, ?_⟩
  rw [step_of_going h.going]
  exact h.duration

theorem Timed.left_step (h : m.Timed ticks) : m.step.left + 1 = m.left := by
  have going := h.going
  rw [step_of_going going]
  simp only [left]
  omega

theorem Timed.left_le (h : m.Timed ticks) : m.left ≤ max ticks 1 := by
  rw [left, h.duration]
  exact Nat.sub_le _ _

theorem left_of_done (done : m.isDone = true) : m.left = 0 := by
  simp only [isDone, decide_eq_true_eq] at done
  rw [left]
  omega

theorem dir_step : m.step.dir = m.dir := by
  unfold step
  split <;> rfl

end Motion

namespace Game

open Board

variable {g g' : Game} {i : Nat} {b : Block} {m : Motion}

/-! ## Clocks -/

theorem mem_blocks_pushBlock {d : Direction} (here : b ∈ (g.pushBlock i d).blocks) :
    b ∈ g.blocks ∨ ∃ a ∈ g.blocks, b = g.pushed a d := by
  cases there : g.blocks[i]? with
  | none =>
    rw [pushBlock_of_none d there] at here
    exact .inl here
  | some a =>
    rw [blocks_pushBlock d there] at here
    obtain old | rfl := List.mem_or_eq_of_mem_set here
    · exact .inl old
    · exact .inr ⟨a, List.mem_of_getElem? there, rfl⟩

theorem mem_blocks_startMove {d : Direction} (here : b ∈ (g.startMove d).blocks) :
    b ∈ g.blocks ∨ ∃ a ∈ g.blocks, b = (g.leave g.puffle.pos).pushed a d := by
  have here : b ∈ ((g.leave g.puffle.pos).pushAhead (g.puffle.pos.step d) d).blocks := by
    rw [startMove_eq] at here
    exact (blocks_pressAt _) ▸ here
  rw [← blocks_leave g.puffle.pos]
  unfold pushAhead at here
  split at here
  · exact mem_blocks_pushBlock here
  · exact .inl here

theorem blocks_enterLock (c : Coord) :
    ((((g.arrive c).takeBag c).openLock c).takeKey c).awaitStuckCheck.blocks = g.blocks :=
  (SameGround.search c).blocks.trans (SameGround.reach c).blocks

theorem blocks_enterTeleporter (c d : Coord) :
    ((((g.arrive c).takeBag c).teleport c d).takeKey c).blocks = g.blocks :=
  (SameGround.exit c d).blocks.trans (SameGround.reach c).blocks

theorem blocks_enterPlain (c : Coord) :
    (((g.arrive c).takeBag c).takeKey c).awaitStuckCheck.blocks = g.blocks :=
  (SameGround.search c).blocks.trans (SameGround.reach c).blocks

/-- Where a move of a block comes from. -/
theorem Step.blockMotion_cases (step : Step g g') (here : b ∈ g'.blocks)
    (moves : b.motion = some m) :
    (∃ a ∈ g.blocks, a.motion = some m) ∨
    (∃ a ∈ g.blocks, ∃ n, a.motion = some n ∧ n.step.isDone = false ∧ m = n.step) ∨
    ∃ a : Block, ∃ d, m = .start a.pos (a.pos.step d) d g.rules.blockMoveTicks := by
  have unopened {h : Game} {l : Level} (opened : h.Opened l) : b ∉ h.blocks := by
    intro here
    rw [opened.blocks] at here
    obtain ⟨c, _, rfl⟩ := List.mem_map.1 here
    cases moves
  have reset {h : Game} (here : b ∈ h.resetLevel.blocks) (same : h.blocks = g.blocks) :
      b ∈ g.blocks := by
    obtain still | ⟨l, opened⟩ := h.resetLevel_cases
    · rwa [still, same] at here
    · exact absurd here (unopened opened)
  cases step with
  | countTick | walk | leaveBoard | forgetStuckCheck => exact .inl ⟨b, here, moves⟩
  | startMove d =>
    obtain old | ⟨a, _, rfl⟩ := mem_blocks_startMove here
    · exact .inl ⟨b, old, moves⟩
    · have rules : (g.leave g.puffle.pos).rules = g.rules :=
        rules_of_setting (setting_leave g _)
      exact .inr (.inr ⟨a, d, rules ▸ (Option.some.inj moves).symm⟩)
  | dropMomentum _ there rests =>
    obtain old | rfl := List.mem_or_eq_of_mem_set here
    · exact .inl ⟨b, old, moves⟩
    · cases rests.symm.trans moves
  | slide d _ there =>
    rw [blocks_pushBlock d there] at here
    obtain old | rfl := List.mem_or_eq_of_mem_set here
    · exact .inl ⟨b, old, moves⟩
    · exact .inr (.inr ⟨_, d, (Option.some.inj moves).symm⟩)
  | glide _ there moved going =>
    obtain old | rfl := List.mem_or_eq_of_mem_set here
    · exact .inl ⟨b, old, moves⟩
    · exact .inr (.inl ⟨_, List.mem_of_getElem? there, _, moved, going,
        (Option.some.inj moves).symm⟩)
  | @land i a n =>
    obtain ⟨momentum, _, blocks⟩ := blocks_landBlock (g := g) (i := i) (b := a) (m := n.step)
    rw [blocks] at here
    obtain old | rfl := List.mem_or_eq_of_mem_set here
    · exact .inl ⟨b, old, moves⟩
    · cases moves
  | reachGoal => exact .inl ⟨b, (SameGround.reach _).blocks ▸ here, moves⟩
  | enterLock => exact .inl ⟨b, blocks_enterLock _ ▸ here, moves⟩
  | enterTeleporter => exact .inl ⟨b, blocks_enterTeleporter _ _ ▸ here, moves⟩
  | enterPlain => exact .inl ⟨b, blocks_enterPlain _ ▸ here, moves⟩
  | fail => exact .inl ⟨b, reset here rfl, moves⟩
  | reset => exact .inl ⟨b, reset here rfl, moves⟩
  | load | next => exact absurd here (unopened (opened_load _ _))
  | conclude => cases here

/-- Every move on its way takes as long as the rules say. -/
structure Timed (g : Game) : Prop where
  puffle : ∀ m, g.puffle.motion = some m → m.Timed g.rules.puffleMoveTicks
  blocks : ∀ b ∈ g.blocks, ∀ m, b.motion = some m → m.Timed g.rules.blockMoveTicks

theorem Step.timed (step : Step g g') (h : g.Timed) : g'.Timed := by
  constructor
  · intro m moves
    rw [step.rules_eq]
    obtain before | ⟨n, before, going, rfl⟩ | ⟨d, _, rfl⟩ := step.puffleMotion_cases moves
    · exact h.puffle m before
    · exact (h.puffle n before).step going
    · exact .start ..
  · intro b here m moves
    rw [step.rules_eq]
    obtain ⟨a, there, before⟩ | ⟨a, there, n, before, going, rfl⟩ | ⟨a, d, rfl⟩ :=
      step.blockMotion_cases here moves
    · exact h.blocks a there m before
    · exact (h.blocks a there n before).step going
    · exact .start ..

/-! ## Links -/

/-- No teleporter has another end. -/
structure Unlinked (g : Game) : Prop where
  paired : g.board.Paired
  link? : ∀ c, g.board.link? c = none

theorem unlinked_of_bare (paired : g.board.Paired)
    (bare : ∀ c, g.board.kind? c = some .teleporter → g.board.link? c = none) : g.Unlinked := by
  refine ⟨paired, fun c => ?_⟩
  cases link : g.board.link? c with
  | none => rfl
  | some d => exact link.symm.trans (bare c (paired.teleporter c d link))

theorem Operation.unlinked {es : List Event} (op : Operation g es g') (h : g.Unlinked) :
    g'.Unlinked := by
  obtain ⟨same, _⟩ | ⟨c, d, _, _, link, _⟩ := op.portals h.paired
  · exact ⟨same.paired h.paired, fun c => (same.link? c).trans (h.link? c)⟩
  · cases (h.link? c).symm.trans link

theorem PlaysOn.unlinked (plays : g.PlaysOn g') (h : g.Unlinked) : g'.Unlinked := by
  obtain ⟨es, _, plays⟩ := plays
  exact plays.keeps (P := fun _ g => g.Unlinked) (fun _ _ _ _ op => op.unlinked) [] h

theorem landing_of_unlinked (h : g.Unlinked) :
    g.landing i b m = m.target := by
  unfold landing
  cases exit : (g.setBlock i { b with motion := none }).blockExit? m.target with
  | none => rfl
  | some c =>
    obtain ⟨link, _⟩ := blockExit?_eq_some exit
    cases (h.link? _).symm.trans link

end Game

/-- The ticks that a move of a block takes. -/
def Game.blockTicks (g : Game) : Nat := max g.rules.blockMoveTicks 1

/-! ## Blocks -/

/-- The ticks until a block rests for good, at most, when a move takes `ticks` of them. -/
def Block.due (b : Block) (ticks : Nat) : Nat :=
  match b.motion, b.momentum with
  | some m, _ => m.left + (m.target.room m.dir * ticks + 1)
  | none, some d => b.pos.room d * ticks + 1
  | none, none => 0

namespace Game

variable {g g' : Game} {i : Nat} {b : Block} {m : Motion}

theorem due_stepBlock {ticks : Nat} (here : g.blocks[i]? = some b) (moves : b.motion = some m)
    (timed : m.Timed ticks) (unlinked : g.Unlinked) (t : Nat) :
    ∃ b', (g.stepBlock i).blocks[i]? = some b' ∧ b'.due t + 1 ≤ b.due t := by
  have due : b.due t = m.left + (m.target.room m.dir * t + 1) := by simp [Block.due, moves]
  have bound := (List.getElem?_eq_some_iff.1 here).1
  have passes := timed.left_step
  unfold stepBlock
  simp only [here, moves]
  split
  · rename_i done
    have ended := Motion.left_of_done done
    obtain ⟨momentum, onward, blocks⟩ := blocks_landBlock (g := g) (i := i) (b := b) (m := m.step)
    rw [landing_of_unlinked unlinked, target_step] at blocks
    refine ⟨⟨m.target, none, momentum⟩, by simp [blocks, bound], ?_⟩
    have rests : (⟨m.target, none, momentum⟩ : Block).due t ≤ m.target.room m.dir * t + 1 := by
      cases momentum with
      | none => exact Nat.zero_le _
      | some d =>
        rw [onward d rfl, Motion.dir_step]
        exact Nat.le_refl _
    omega
  · refine ⟨{ b with motion := some m.step }, getElem?_setBlock here, ?_⟩
    have glides : Block.due { b with motion := some m.step } t =
        m.step.left + (m.target.room m.dir * t + 1) := by
      rw [← target_step, ← Motion.dir_step (m := m)]
      rfl
    omega

/-- A block that has landed needs no more ticks when it slides on or gives up. -/
theorem due_restartBlock (here : g.blocks[i]? = some b) (inside : b.pos.OnBoard)
    (rests : b.motion = none) {d : Direction} (momentum : b.momentum = some d) :
    (∃ n, (g.restartBlock i).blocks[i]? = some ⟨b.pos, some n, none⟩ ∧
      n.Timed g.rules.blockMoveTicks ∧
      (⟨b.pos, some n, none⟩ : Block).due g.blockTicks = b.due g.blockTicks) ∨
    (g.restartBlock i).blocks[i]? = some ⟨b.pos, none, none⟩ := by
  have dropped : (g.setBlock i ⟨b.pos, none, none⟩).blocks[i]? = some ⟨b.pos, none, none⟩ :=
    getElem?_setBlock here
  unfold restartBlock
  simp only [here, Block.isMoving, rests, Option.isSome_none, momentum, Bool.false_eq_true,
    if_false]
  split
  · rename_i free
    left
    obtain ⟨next, _, _⟩ := canPush_eq_true free
    refine ⟨.start b.pos (b.pos.step d) d g.rules.blockMoveTicks, ?_, .start .., ?_⟩
    · rw [blocks_pushBlock d dropped]
      exact getElem?_setBlock dropped
    · have room := Coord.room_step inside next
      have due : b.due g.blockTicks = b.pos.room d * g.blockTicks + 1 := by
        simp [Block.due, rests, momentum]
      have due' : (⟨b.pos, some (.start b.pos (b.pos.step d) d g.rules.blockMoveTicks), none⟩ :
          Block).due g.blockTicks =
            g.blockTicks + ((b.pos.step d).room d * g.blockTicks + 1) := rfl
      rw [due, due', ← room, Nat.succ_mul]
      omega
  · exact .inr dropped

/-- Its turn takes one tick off what a block needs. -/
theorem due_advanceBlock (here : g.blocks[i]? = some b) (inside : b.pos.OnBoard)
    (timed : ∀ m, b.motion = some m → m.Timed g.rules.blockMoveTicks)
    (unlinked : g.Unlinked) :
    ∃ b', (g.advanceBlock i).blocks[i]? = some b' ∧
      b'.due g.blockTicks ≤ b.due g.blockTicks - 1 := by
  unfold advanceBlock
  cases motion : b.motion with
  | some m =>
    have same : g.restartBlock i = g := by simp [restartBlock, here, Block.isMoving, motion]
    obtain ⟨b', there, less⟩ := due_stepBlock here motion (timed m motion) unlinked g.blockTicks
    rw [same]
    exact ⟨b', there, by omega⟩
  | none =>
    cases momentum : b.momentum with
    | none =>
      have same : g.restartBlock i = g := by
        simp [restartBlock, here, Block.isMoving, motion, momentum]
      have still : g.stepBlock i = g := by simp [stepBlock, here, motion]
      rw [same, still]
      exact ⟨b, here, by simp [Block.due, motion, momentum]⟩
    | some d =>
      have links := (PlaysOn.restartBlock g i).unlinked unlinked
      obtain ⟨n, there, timed', due⟩ | there := due_restartBlock here inside motion momentum
      · obtain ⟨b', there', less⟩ := due_stepBlock there rfl timed' links g.blockTicks
        exact ⟨b', there', by omega⟩
      · have still : (g.restartBlock i).stepBlock i = g.restartBlock i := by
          simp [stepBlock, there]
        rw [still]
        exact ⟨_, there, Nat.zero_le _⟩

/-! ## All blocks in turn -/

theorem getElem?_pushBlock_of_ne {j : Nat} (other : j ≠ i) (d : Direction) :
    (g.pushBlock i d).blocks[j]? = g.blocks[j]? := by
  cases here : g.blocks[i]? with
  | none => rw [pushBlock_of_none d here]
  | some b => rw [blocks_pushBlock d here, List.getElem?_set_ne other.symm]

theorem getElem?_advanceBlock_of_ne {j : Nat} (other : j ≠ i) :
    (g.advanceBlock i).blocks[j]? = g.blocks[j]? := by
  have set (f : Game) (a : Block) : (f.setBlock i a).blocks[j]? = f.blocks[j]? :=
    List.getElem?_set_ne other.symm
  have restart (f : Game) : (f.restartBlock i).blocks[j]? = f.blocks[j]? := by
    unfold restartBlock
    split
    · rfl
    · split
      · rfl
      · split
        · rfl
        · dsimp only
          split
          · rw [getElem?_pushBlock_of_ne other, set]
          · rw [set]
  rw [advanceBlock, ← restart g]
  generalize g.restartBlock i = f
  unfold stepBlock
  split
  · rfl
  · split
    · rfl
    · rename_i b _ _ m _
      dsimp only
      split
      · obtain ⟨_, _, blocks⟩ := blocks_landBlock (g := f) (i := i) (b := b) (m := m.step)
        rw [blocks, List.getElem?_set_ne other.symm]
      · rw [set]

theorem advanceBlock_of_none (absent : g.blocks[i]? = none) : g.advanceBlock i = g := by
  apply advanceBlock_of_calm
  intro b here
  cases absent.symm.trans here

/-- The game when the first blocks have had their turns. -/
def advanceUpTo (g : Game) (n : Nat) : Game := (List.range n).foldl advanceBlock g

theorem advanceUpTo_succ (g : Game) (n : Nat) :
    g.advanceUpTo (n + 1) = (g.advanceUpTo n).advanceBlock n := by
  simp only [advanceUpTo, List.range_succ, List.foldl_append, List.foldl_cons, List.foldl_nil]

theorem getElem?_advanceUpTo_of_le {j n : Nat} (early : n ≤ j) :
    (g.advanceUpTo n).blocks[j]? = g.blocks[j]? := by
  induction n with
  | zero => rfl
  | succ n ih => rw [advanceUpTo_succ, getElem?_advanceBlock_of_ne (by omega), ih (by omega)]

theorem getElem?_advanceUpTo_of_lt {j n : Nat} (late : j < n) :
    (g.advanceUpTo n).blocks[j]? = ((g.advanceUpTo j).advanceBlock j).blocks[j]? := by
  induction n with
  | zero => omega
  | succ n ih =>
    by_cases now : n = j
    · rw [advanceUpTo_succ, now]
    · rw [advanceUpTo_succ, getElem?_advanceBlock_of_ne (Ne.symm now), ih (by omega)]

/-- Each block has its turn, and until then it is as it was. -/
theorem advanceBlocks_turn (g : Game) (j : Nat) :
    ∃ f, g.PlaysOn f ∧ f.blocks[j]? = g.blocks[j]? ∧
      g.advanceBlocks.blocks[j]? = (f.advanceBlock j).blocks[j]? := by
  by_cases bound : j < g.blocks.length
  · exact ⟨g.advanceUpTo j, .advanceAll g _, getElem?_advanceUpTo_of_le (Nat.le_refl j),
      getElem?_advanceUpTo_of_lt bound⟩
  · refine ⟨g, .refl g, rfl, ?_⟩
    rw [advanceBlock_of_none (List.getElem?_eq_none (by omega))]
    exact getElem?_advanceUpTo_of_le (by omega)

/-! ## Ticks -/

/-- Everything rests after so many ticks, at the latest. -/
structure DueIn (ticks : Nat) (g : Game) : Prop where
  puffle : ∀ m, g.puffle.motion = some m → m.left ≤ ticks
  blocks : ∀ b ∈ g.blocks, b.due g.blockTicks ≤ ticks

theorem DueIn.settled (h : g.DueIn 0) (timed : g.Timed) : g.isSettled = true := by
  refine isSettled_iff.2 ⟨?_, fun b here => ?_⟩
  · cases moves : g.puffle.motion with
    | none => rfl
    | some m =>
      have left := (timed.puffle m moves).left_step
      have := h.puffle m moves
      omega
  · have due := h.blocks b here
    unfold Block.due at due
    split at due
    · omega
    · omega
    · rename_i rests calm
      exact ⟨rests, calm⟩

theorem dueIn_of_timed (timed : g.Timed)
    (inside : ∀ b ∈ g.blocks, b.pos.OnBoard ∧ b.target.OnBoard) :
    g.DueIn (max g.rules.puffleMoveTicks 1 + (19 * g.blockTicks + 1)) := by
  constructor
  · intro m moves
    have := (timed.puffle m moves).left_le
    omega
  · intro b here
    obtain ⟨on_pos, on_target⟩ := inside b here
    unfold Block.due
    split
    · rename_i m moves
      have left := (timed.blocks b here m moves).left_le
      rw [target_of_moves moves] at on_target
      have room := Nat.mul_le_mul_right g.blockTicks (Coord.room_le on_target m.dir)
      unfold blockTicks at room ⊢
      omega
    · rename_i d _ _
      have room := Nat.mul_le_mul_right g.blockTicks (Coord.room_le on_pos d)
      omega
    · omega

theorem steer_idle (g : Game) : g.steer .idle = g := by
  obtain idle | ⟨d, held, _⟩ := g.steer_cases .idle
  · exact idle
  · cases held

/-- The blocks are a tick further when the puffle's turn comes. -/
theorem DueIn.approach {ticks : Nat} (h : g.DueIn (ticks + 1)) (timed : g.Timed)
    (inside : ∀ b ∈ g.blocks, b.pos.OnBoard) (unlinked : g.Unlinked) :
    ∀ b ∈ (g.approach .idle).blocks, b.due g.blockTicks ≤ ticks := by
  rw [Game.approach, steer_idle]
  intro b here
  obtain ⟨j, there⟩ := List.getElem?_of_mem here
  obtain ⟨f, plays, same, turned⟩ :=
    advanceBlocks_turn { g with events := [], ticks := g.ticks + 1 } j
  have rules : f.rules = g.rules := rules_of_setting plays.setting
  have clock : f.blockTicks = g.blockTicks := by rw [blockTicks, blockTicks, rules]
  have unlinked' : f.Unlinked := plays.unlinked ⟨unlinked.paired, unlinked.link?⟩
  rw [there] at turned
  cases before : g.blocks[j]? with
  | none =>
    rw [advanceBlock_of_none (same.trans before)] at turned
    cases (turned.trans same).trans before
  | some a =>
    have own := List.mem_of_getElem? before
    have due := h.blocks a own
    obtain ⟨b', there', less⟩ := due_advanceBlock (same.trans before) (inside a own)
      (rules ▸ timed.blocks a own) unlinked'
    cases turned.trans there'
    rw [clock] at less
    omega

/-- The puffle's part of a tick leaves the blocks alone, and starts no move. -/
theorem Advance.bodies (advance : Advance g g')
    (short : ∀ m, g.puffle.motion = some m → m.step.isDone = true →
      g.board.kind? m.target ≠ some .goal) :
    g'.blocks = g.blocks ∧ ∀ n, g'.puffle.motion = some n →
      ∃ m, g.puffle.motion = some m ∧ n = m.step := by
  cases advance with
  | rest rests =>
    refine ⟨rfl, fun n moves => ?_⟩
    cases rests.symm.trans moves
  | walk moves => exact ⟨rfl, fun n walks => ⟨_, moves, (Option.some.inj walks).symm⟩⟩
  | leaveBoard => exact ⟨rfl, nofun⟩
  | @reachGoal m _ moves done here goal =>
    have kind : g.board.kind? m.target = some .goal := by
      rw [Board.kind?, here, Option.map_some, goal]
    exact absurd kind (short m moves done)
  | enterLock => exact ⟨blocks_enterLock _, by simp⟩
  | enterTeleporter => exact ⟨blocks_enterTeleporter _ _, by simp⟩
  | enterPlain => exact ⟨blocks_enterPlain _, by simp⟩

theorem DueIn.beforeCheck {ticks : Nat} (h : g.DueIn (ticks + 1)) (timed : g.Timed)
    (inside : ∀ b ∈ g.blocks, b.pos.OnBoard) (unlinked : g.Unlinked)
    (playing : g.phase = .playing) (short : g.reachesGoal .idle = false)
    (setting : (g.beforeCheck .idle).setting = g.setting) : (g.beforeCheck .idle).DueIn ticks := by
  obtain ⟨blocks, moves⟩ := (g.approach .idle).advance_advancePuffle.bodies
    fun m => short_of_goal playing rfl short
  have puffle : (g.approach .idle).puffle = g.puffle := by
    rw [Game.approach, steer_idle, (puffle_advanceBlocks _).1]
  have rules : (g.beforeCheck .idle).rules = g.rules := rules_of_setting setting
  have clock : (g.beforeCheck .idle).blockTicks = g.blockTicks := by
    rw [blockTicks, blockTicks, rules]
  constructor
  · intro n walks
    obtain ⟨m, started, rfl⟩ := moves n walks
    rw [puffle] at started
    have left := (timed.puffle m started).left_step
    have due := h.puffle m started
    omega
  · rw [clock, Game.beforeCheck, blocks]
    exact h.approach timed inside unlinked

/-- A level that has just been drawn is at rest. -/
theorem Opened.settled {l : Level} (h : g.Opened l) : g.isSettled = true := by
  refine isSettled_iff.2 ⟨by rw [h.puffle]; rfl, fun b here => ?_⟩
  rw [h.blocks] at here
  obtain ⟨c, _, rfl⟩ := List.mem_map.1 here
  exact ⟨rfl, rfl⟩

/-- An idle tick brings everything to rest or ends play, or it is one tick less to go. -/
theorem DueIn.tick {ticks : Nat} {l : Level} (h : g.DueIn (ticks + 1)) (timed : g.Timed)
    (inside : ∀ b ∈ g.blocks, b.pos.OnBoard) (unlinked : g.Unlinked) (keyed : g.Keyed)
    (playing : g.phase = .playing) (layout : g.layout = some l) :
    ((g.tick .idle).isSettled = true ∨ (g.tick .idle).phase ≠ .playing) ∨
    (g.tick .idle).DueIn ticks ∧ (g.tick .idle).Unlinked ∧ (g.tick .idle).phase = .playing := by
  rw [tick_eq playing rfl]
  cases goal : g.reachesGoal .idle with
  | true =>
    left
    obtain ⟨f, _, gone⟩ := beforeCheck_of_reachesGoal goal
    rw [gone, checkStuck_goToNextLevel]
    obtain ⟨l, _, next⟩ | ⟨_, ended⟩ := f.goToNextLevel_cases
    · rw [next]
      exact .inl (opened_load _ _).settled
    · rw [ended]
      right
      nofun
  | false =>
    have plays := playsOn_beforeCheck playing rfl keyed goal
    have setting : (g.beforeCheck .idle).setting = g.setting := plays.setting
    have playing' := (phase_of_setting setting).trans playing
    have layout' := (layout_of_setting setting).trans layout
    obtain ⟨_, same⟩ | ⟨_, _, settled, ⟨_, same⟩ | ⟨_, same⟩⟩ :=
      (g.beforeCheck .idle).checkStuck_cases
    · right
      rw [same]
      exact ⟨h.beforeCheck timed inside unlinked playing goal setting,
        plays.unlinked ⟨unlinked.paired, unlinked.link?⟩, playing'⟩
    · rw [same]
      exact .inl (.inl settled)
    · rw [same]
      generalize g.beforeCheck .idle = f at playing' layout'
      have reset : f.reportStuck.resetLevel.Opened l := opened_resetLevel playing' layout'
      exact .inl (.inl reset.settled)

end Game

/-! ## Runs -/

section
variable {levels : List Level} {rules : Rules} {seed : UInt64} {g₀ : Game} {r : Run}

theorem Run.Reachable.timed (new : Game.new levels rules seed = .ok g₀)
    (h : Run.Reachable g₀ r) : r.game.Timed := by
  have unstarted := Game.unstarted_of_new new
  apply h.game_invariant unstarted.silent _ (fun _ timed => ⟨timed.puffle, timed.blocks⟩)
    fun _ _ step => step.timed
  have puffle := Game.puffle_of_new new
  have blocks : g₀.blocks = [] := by
    unfold Game.new at new
    split at new <;> cases new
    rfl
  refine ⟨fun _ moves => ?_, fun _ here => ?_⟩
  · rw [puffle] at moves
    cases moves
  · rw [blocks] at here
    cases here

/-- Idling comes to an end when everything is due. -/
theorem Run.Reachable.settles (new : Game.new levels rules seed = .ok g₀)
    (uncrowded : ∀ l ∈ levels, l.Uncrowded) (h : Run.Reachable g₀ r)
    (playing : r.game.phase = .playing) (unlinked : r.game.Unlinked) {ticks : Nat}
    (due : r.game.DueIn ticks) :
    ∃ k ≤ ticks, let g := (Run.ticks .idle k r).game
      g.isSettled = true ∨ g.phase ≠ .playing := by
  induction ticks generalizing r with
  | zero => exact ⟨0, Nat.le_refl 0, .inl (due.settled (h.timed new))⟩
  | succ ticks ih =>
    obtain ⟨l, layout⟩ := (h.loaded new).exists_layout playing
    have inside := (h.occupancy new uncrowded playing).inside
    obtain ended | ⟨due', unlinked', playing'⟩ := due.tick (h.timed new)
      (fun b here => (inside b here).1) unlinked (h.keyed new) playing layout
    · exact ⟨1, by omega, ended⟩
    · obtain ⟨k, bound, ended⟩ := ih (.next (.tick .idle) h) playing' unlinked' due'
      exact ⟨k + 1, by omega, ended⟩

/-- On a board without linked teleporters everything rests after some time: a move of the puffle
and the slide of a block across the board. -/
theorem settles_without_teleporters (new : Game.new levels rules seed = .ok g₀)
    (accepted : ∀ l ∈ levels, l.Accepted)
    (distinct : ∀ l ∈ levels, l.blocks.Nodup ∧ l.spawn ∉ l.blocks)
    (paced : 1 ≤ rules.puffleMoveTicks ∧ 1 ≤ rules.blockMoveTicks) (h : Run.Reachable g₀ r)
    (playing : r.game.phase = .playing)
    (unlinked : ∀ c, r.game.board.kind? c = some .teleporter → r.game.board.link? c = none) :
    ∃ k ≤ rules.puffleMoveTicks + 19 * (rules.blockMoveTicks + 1),
      let g := (Run.ticks .idle k r).game
      g.isSettled = true ∨ g.phase ≠ .playing := by
  have uncrowded := Level.uncrowded_of_accepted accepted distinct
  have paired := (h.portals new).paired
  have alone : r.game.Unlinked := by
    refine ⟨paired, fun c => ?_⟩
    cases link : r.game.board.link? c with
    | none => rfl
    | some d => exact link.symm.trans (unlinked c (paired.teleporter c d link))
  have inside := (h.occupancy new uncrowded playing).inside
  obtain ⟨k, bound, ended⟩ :=
    h.settles new uncrowded playing alone (Game.dueIn_of_timed (h.timed new) inside)
  refine ⟨k, ?_, ended⟩
  rw [Game.blockTicks, h.rules_eq new] at bound
  omega

end

/-- The block still slides, and comes to rest in time. -/
theorem settles_in_corridor :
    ∃ g₀ r, Game.new [corridor] .standard 0 = .ok g₀ ∧ Run.Reachable g₀ r ∧
      r.game.isSettled = false ∧ ∃ k ≤ 80, let g := (Run.ticks .idle k r).game
        g.isSettled = true ∨ g.phase ≠ .playing := by
  obtain ⟨g₀, new⟩ : ∃ g₀, Game.new [corridor] .standard 0 = .ok g₀ := ⟨_, rfl⟩
  let r := [.start 1, .tick (.hold .right)].foldl Run.act (.start g₀)
  have reached : Run.Reachable g₀ r := .actions _
  have pushed : r.game.phase = .playing ∧ r.game.isSettled = false ∧
      (r.game.board.tiles.toList.all fun t => t.link.isNone) = true := by
    cases new
    decide +kernel
  obtain ⟨playing, moving, linkless⟩ := pushed
  have accepted : ∀ l ∈ [corridor], l.Accepted := by simpa using corridor_accepted
  have unlinked (c : Coord) : r.game.board.link? c = none := by
    unfold Board.link? Board.get?
    cases Board.index? c with
    | none => rfl
    | some i =>
      have mem : r.game.board.tiles[i] ∈ r.game.board.tiles.toList := by simp
      simpa using List.all_eq_true.1 linkless _ mem
  obtain ⟨k, bound, ended⟩ := settles_without_teleporters new accepted (by decide) (by decide)
    reached playing fun c _ => unlinked c
  exact ⟨g₀, r, new, reached, moving, k, bound, ended⟩

end IceMaze
