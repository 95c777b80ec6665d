import IceMaze.Proofs.Board.Cells
import IceMaze.Proofs.Play.Setting
import Mathlib.Logic.Relation

/-!
The steps that a game is played by.

`Step` lists everything that happens to a game, with the condition under which it happens. A tick
is a sequence of steps from the game with no events (`steps_tick`), and so is every lifecycle call.
What a step preserves therefore holds after any of them.
-/

namespace IceMaze.Game

/-- The puffle at the end of its move. -/
def arrive (g : Game) (c : Coord) : Game :=
  { g with puffle := { g.puffle with pos := c, motion := none } }

@[simp] theorem setting_arrive (g : Game) (c : Coord) : (g.arrive c).setting = g.setting := rfl

inductive Step : Game → Game → Prop where
  | countTick {g} (playing : g.phase = .playing) : Step g { g with ticks := g.ticks + 1 }
  | startMove {g} (d : Direction) (playing : g.phase = .playing) (rests : g.puffle.motion = none)
      (free : g.canMove d = true) : Step g (g.startMove d)
  | dropMomentum {g i b} (playing : g.phase = .playing) (here : g.blocks[i]? = some b)
      (rests : b.motion = none) : Step g (g.setBlock i { b with momentum := none })
  | slide {g i b} (d : Direction) (playing : g.phase = .playing) (here : g.blocks[i]? = some b)
      (rests : b.motion = none) (free : g.canPush b.pos d = true) : Step g (g.pushBlock i d)
  | glide {g i b m} (playing : g.phase = .playing) (here : g.blocks[i]? = some b)
      (moves : b.motion = some m) (going : m.step.isDone = false) :
      Step g (g.setBlock i { b with motion := some m.step })
  | land {g i b m} (playing : g.phase = .playing) (here : g.blocks[i]? = some b)
      (moves : b.motion = some m) (done : m.step.isDone = true) : Step g (g.landBlock i b m.step)
  | walk {g m} (playing : g.phase = .playing) (moves : g.puffle.motion = some m)
      (going : m.step.isDone = false) :
      Step g { g with puffle := { g.puffle with motion := some m.step } }
  | leaveBoard {g m} (playing : g.phase = .playing) (moves : g.puffle.motion = some m)
      (done : m.step.isDone = true) (off : g.board.get? m.target = none) :
      Step g (g.arrive m.target)
  | reachGoal {g m t} (playing : g.phase = .playing) (moves : g.puffle.motion = some m)
      (done : m.step.isDone = true) (here : g.board.get? m.target = some t)
      (goal : t.kind = .goal) : Step g ((g.arrive m.target).takeBag m.target)
  | enterLock {g m t} (playing : g.phase = .playing) (moves : g.puffle.motion = some m)
      (done : m.step.isDone = true) (here : g.board.get? m.target = some t)
      (lock : t.kind = .lock) :
      Step g ((((g.arrive m.target).takeBag m.target).openLock m.target).takeKey
        m.target).awaitStuckCheck
  | enterTeleporter {g m t c} (playing : g.phase = .playing) (moves : g.puffle.motion = some m)
      (done : m.step.isDone = true) (here : g.board.get? m.target = some t)
      (teleporter : t.kind = .teleporter) (fresh : t.plaid = false) (linked : t.link = some c)
      (free : g.blockAt c = none) :
      Step g ((((g.arrive m.target).takeBag m.target).teleport m.target c).takeKey m.target)
  | enterPlain {g m t} (playing : g.phase = .playing) (moves : g.puffle.motion = some m)
      (done : m.step.isDone = true) (here : g.board.get? m.target = some t)
      (plain : t.kind ≠ .goal ∧ t.kind ≠ .lock) :
      Step g (((g.arrive m.target).takeBag m.target).takeKey m.target).awaitStuckCheck
  | forgetStuckCheck {g} (playing : g.phase = .playing) : Step g { g with stuckCheck := false }
  | fail {g} (playing : g.phase = .playing) (settled : g.isSettled = true)
      (stuck : g.isStuck = true) :
      Step g ((g.note (.stuck g.puffle.pos g.levelNumber)).emit (.stuck g.puffle.pos)).resetLevel
  | reset {g} (playing : g.phase = .playing) : Step g g.resetLevel
  | load {g n l} (found : g.level? n = some l) : Step g (g.load n l)
  | next {g l} (found : g.level? (g.levelNumber + 1) = some l) :
      Step g (g.complete.load (g.levelNumber + 1) l)
  | conclude {g} (last : g.level? (g.levelNumber + 1) = none) : Step g g.complete.finish

abbrev Steps : Game → Game → Prop := Relation.ReflTransGen Step

theorem Steps.keeps {Q : Game → Prop} (keeps : ∀ g g', Step g g' → Q g → Q g') {g g' : Game}
    (h : Steps g g') (hg : Q g) : Q g' := by
  induction h with
  | refl => exact hg
  | tail _ step ih => exact keeps _ _ step ih

/-! ## Lifecycle calls -/

variable {g : Game}

theorem step_of_startLevel {n : Nat} {g' : Game} (h : g.startLevel n = .ok g') : Step g g' := by
  unfold startLevel at h
  split at h
  · rename_i l found
    cases h
    exact .load found
  · cases h

theorem goToNextLevel_cases (g : Game) :
    (∃ l, g.level? (g.levelNumber + 1) = some l ∧
      g.goToNextLevel = g.complete.load (g.levelNumber + 1) l) ∨
    (g.level? (g.levelNumber + 1) = none ∧ g.goToNextLevel = g.complete.finish) := by
  unfold goToNextLevel startLevel
  have number : g.complete.levelNumber = g.levelNumber := rfl
  have found : g.complete.level? (g.levelNumber + 1) = g.level? (g.levelNumber + 1) := rfl
  simp only [number, found]
  cases g.level? (g.levelNumber + 1) with
  | none => exact .inr ⟨rfl, rfl⟩
  | some l => exact .inl ⟨l, rfl, rfl⟩

theorem step_goToNextLevel (g : Game) : Step g g.goToNextLevel := by
  obtain ⟨l, found, next⟩ | ⟨last, ended⟩ := g.goToNextLevel_cases
  · rw [next]
    exact .next found
  · rw [ended]
    exact .conclude last

theorem resetLevel_idle (h : g.phase ≠ .playing) : g.resetLevel = g := by simp [resetLevel, h]

theorem steps_resetLevel (g : Game) : Steps g g.resetLevel := by
  by_cases h : g.phase = .playing
  · exact .single (.reset h)
  · rw [resetLevel_idle h]

theorem attemptMove_eq_some {d : Direction} {g' : Game} :
    g.attemptMove d = some g' ↔
      (g.phase = .playing ∧ g.puffle.motion = none ∧ g.canMove d = true) ∧ g.startMove d = g' := by
  simp [attemptMove, Puffle.isMoving]

theorem step_of_attemptMove {d : Direction} {g' : Game} (h : g.attemptMove d = some g') :
    Step g g' := by
  obtain ⟨⟨playing, rests, free⟩, rfl⟩ := attemptMove_eq_some.1 h
  exact .startMove d playing rests free

theorem setting_of_attemptMove {d : Direction} {g' : Game} (h : g.attemptMove d = some g') :
    g'.setting = g.setting := by
  obtain ⟨_, rfl⟩ := attemptMove_eq_some.1 h
  exact setting_startMove g d

/-! ## The phases of a tick -/

theorem steer_cases (g : Game) (input : Input) :
    g.steer input = g ∨ ∃ d, input.held d = true ∧ g.attemptMove d = some (g.steer input) := by
  unfold steer
  split
  · exact .inl rfl
  · cases h : g.rules.priority.toList.findSome? fun d =>
        if input.held d then g.attemptMove d else none with
    | none => exact .inl rfl
    | some g' =>
      obtain ⟨d, _, started⟩ := List.exists_of_findSome?_eq_some h
      split at started
      · rename_i held
        exact .inr ⟨d, held, started⟩
      · cases started

theorem steps_steer (g : Game) (input : Input) : Steps g (g.steer input) := by
  obtain idle | ⟨d, _, started⟩ := g.steer_cases input
  · rw [idle]
  · exact .single (step_of_attemptMove started)

theorem setting_steer (g : Game) (input : Input) : (g.steer input).setting = g.setting := by
  obtain idle | ⟨d, _, started⟩ := g.steer_cases input
  · rw [idle]
  · exact setting_of_attemptMove started

theorem getElem?_setBlock {i : Nat} {b c : Block} (h : g.blocks[i]? = some b) :
    (g.setBlock i c).blocks[i]? = some c := by
  have := (List.getElem?_eq_some_iff.1 h).1
  simp [setBlock, this]

theorem steps_restartBlock (g : Game) (i : Nat) (playing : g.phase = .playing) :
    Steps g (g.restartBlock i) := by
  unfold restartBlock
  split
  · exact .refl
  · rename_i b here
    split
    · exact .refl
    · rename_i rests
      have rests : b.motion = none := by simpa [Block.isMoving] using rests
      split
      · exact .refl
      · rename_i d _
        have dropped := Relation.ReflTransGen.single (Step.dropMomentum playing here rests)
        dsimp only
        split
        · rename_i free
          exact dropped.tail (.slide d playing (getElem?_setBlock here) rests free)
        · exact dropped

theorem setting_restartBlock (g : Game) (i : Nat) : (g.restartBlock i).setting = g.setting := by
  unfold restartBlock
  split
  · rfl
  · split
    · rfl
    · split
      · rfl
      · dsimp only
        split <;> simp

theorem steps_stepBlock (g : Game) (i : Nat) (playing : g.phase = .playing) :
    Steps g (g.stepBlock i) := by
  unfold stepBlock
  split
  · exact .refl
  · rename_i b here
    split
    · exact .refl
    · rename_i m moves
      dsimp only
      split
      · rename_i done
        exact .single (.land playing here moves done)
      · rename_i going
        exact .single (.glide playing here moves (by simpa using going))

theorem setting_stepBlock (g : Game) (i : Nat) : (g.stepBlock i).setting = g.setting := by
  unfold stepBlock
  split
  · rfl
  · split
    · rfl
    · dsimp only
      split <;> simp

theorem setting_advanceBlock (g : Game) (i : Nat) : (g.advanceBlock i).setting = g.setting := by
  rw [advanceBlock, setting_stepBlock, setting_restartBlock]

theorem steps_advanceBlock (g : Game) (i : Nat) (playing : g.phase = .playing) :
    Steps g (g.advanceBlock i) :=
  (steps_restartBlock g i playing).trans
    (steps_stepBlock _ i ((phase_of_setting (setting_restartBlock g i)).trans playing))

theorem setting_advanceBlocks (g : Game) : g.advanceBlocks.setting = g.setting := by
  unfold advanceBlocks
  generalize List.range g.blocks.length = is
  induction is generalizing g with
  | nil => rfl
  | cons i is ih => rw [List.foldl_cons, ih, setting_advanceBlock]

theorem steps_advanceBlocks (g : Game) (playing : g.phase = .playing) :
    Steps g g.advanceBlocks := by
  unfold advanceBlocks
  generalize List.range g.blocks.length = is
  induction is generalizing g with
  | nil => exact .refl
  | cons i is ih =>
    have playing' := (phase_of_setting (setting_advanceBlock g i)).trans playing
    exact (steps_advanceBlock g i playing).trans (ih _ playing')

theorem blockAt_congr {g g' : Game} (blocks : g'.blocks = g.blocks)
    (board : ∀ c, g'.board.blockOn? c = g.board.blockOn? c) (c : Coord) :
    g'.blockAt c = g.blockAt c := by
  have on : (g'.board.get? c).bind Tile.block = (g.board.get? c).bind Tile.block := board c
  unfold blockAt
  rw [on, blocks]

theorem blockAt_takeBag (g : Game) (c d : Coord) : (g.takeBag c).blockAt d = g.blockAt d := by
  unfold takeBag
  split
  · refine blockAt_congr ?_ (fun e => ?_) d
    · rfl
    · exact Board.blockOn?_modify (by simp)
  · rfl

theorem puffleExit?_eq_some {g : Game} {t : Tile} {c : Coord} :
    g.puffleExit? t = some c ↔ t.plaid = false ∧ t.link = some c ∧ g.blockAt c = none := by
  unfold puffleExit?
  split
  · simp_all
  · simp_all [Option.filter_eq_some_iff]

theorem target_step (m : Motion) : m.step.target = m.target := by
  unfold Motion.step
  split <;> rfl

/-- What the puffle's part of a tick can come to. -/
inductive Advance (g : Game) : Game → Prop where
  | rest (rests : g.puffle.motion = none) : Advance g g
  | walk {m} (moves : g.puffle.motion = some m) (going : m.step.isDone = false) :
      Advance g { g with puffle := { g.puffle with motion := some m.step } }
  | leaveBoard {m} (moves : g.puffle.motion = some m) (done : m.step.isDone = true)
      (off : g.board.get? m.target = none) : Advance g (g.arrive m.target)
  | reachGoal {m t} (moves : g.puffle.motion = some m) (done : m.step.isDone = true)
      (here : g.board.get? m.target = some t) (goal : t.kind = .goal) :
      Advance g ((g.arrive m.target).takeBag m.target).goToNextLevel
  | enterLock {m t} (moves : g.puffle.motion = some m) (done : m.step.isDone = true)
      (here : g.board.get? m.target = some t) (lock : t.kind = .lock) :
      Advance g ((((g.arrive m.target).takeBag m.target).openLock m.target).takeKey
        m.target).awaitStuckCheck
  | enterTeleporter {m t c} (moves : g.puffle.motion = some m) (done : m.step.isDone = true)
      (here : g.board.get? m.target = some t) (teleporter : t.kind = .teleporter)
      (fresh : t.plaid = false) (linked : t.link = some c) (free : g.blockAt c = none) :
      Advance g ((((g.arrive m.target).takeBag m.target).teleport m.target c).takeKey m.target)
  | enterPlain {m t} (moves : g.puffle.motion = some m) (done : m.step.isDone = true)
      (here : g.board.get? m.target = some t) (plain : t.kind ≠ .goal ∧ t.kind ≠ .lock) :
      Advance g (((g.arrive m.target).takeBag m.target).takeKey m.target).awaitStuckCheck

theorem advance_enterTile {m : Motion} (moves : g.puffle.motion = some m)
    (done : m.step.isDone = true) : Advance g ((g.arrive m.target).enterTile m.target) := by
  have arrived : { g.arrive m.target with puffle :=
      { (g.arrive m.target).puffle with pos := m.target } } = g.arrive m.target := rfl
  simp only [enterTile, arrived]
  cases here : (g.arrive m.target).board.get? m.target with
  | none => exact .leaveBoard moves done here
  | some t =>
    dsimp only
    split
    · rename_i goal
      exact .reachGoal moves done here goal
    · rename_i lock
      exact .enterLock moves done here lock
    · rename_i teleporter
      cases exit : ((g.arrive m.target).takeBag m.target).puffleExit? t with
      | none => exact .enterPlain moves done here (by simp [teleporter])
      | some c =>
        obtain ⟨fresh, linked, free⟩ := puffleExit?_eq_some.1 exit
        rw [blockAt_takeBag] at free
        exact .enterTeleporter moves done here teleporter fresh linked free
    · rename_i goal lock _
      exact .enterPlain moves done here ⟨goal, lock⟩

theorem advance_advancePuffle (g : Game) : Advance g g.advancePuffle := by
  unfold advancePuffle
  split
  · rename_i rests
    exact .rest rests
  · rename_i m moves
    dsimp only
    split
    · rename_i done
      rw [target_step]
      exact advance_enterTile moves done
    · rename_i going
      exact .walk moves (by simpa using going)

theorem steps_advancePuffle (g : Game) (playing : g.phase = .playing) :
    Steps g g.advancePuffle := by
  have advanced := g.advance_advancePuffle
  generalize g.advancePuffle = g' at advanced
  cases advanced with
  | rest => exact .refl
  | walk moves going => exact .single (.walk playing moves going)
  | leaveBoard moves done off => exact .single (.leaveBoard playing moves done off)
  | reachGoal moves done here goal =>
    exact (Relation.ReflTransGen.single (.reachGoal playing moves done here goal)).tail
      (step_goToNextLevel _)
  | enterLock moves done here lock => exact .single (.enterLock playing moves done here lock)
  | enterTeleporter moves done here teleporter fresh linked free =>
    exact .single (.enterTeleporter playing moves done here teleporter fresh linked free)
  | enterPlain moves done here plain => exact .single (.enterPlain playing moves done here plain)

theorem steps_checkStuck (g : Game) : Steps g g.checkStuck := by
  unfold checkStuck
  split
  · rename_i due
    simp only [Bool.and_eq_true, decide_eq_true_eq] at due
    obtain ⟨⟨_, playing⟩, settled⟩ := due
    have forgot := Relation.ReflTransGen.single (Step.forgetStuckCheck playing)
    dsimp only
    split
    · rename_i stuck
      exact forgot.tail (.fail playing settled stuck)
    · exact forgot
  · exact .refl

/-! ## Ticks -/

theorem steps_tick (g : Game) (input : Input) : Steps { g with events := [] } (g.tick input) := by
  unfold tick
  dsimp only
  split
  · exact .refl
  · rename_i playing
    have playing : g.phase = .playing := Decidable.not_not.1 playing
    refine .trans (.single (.countTick playing)) ?_
    split
    · exact steps_resetLevel _
    · have steered := setting_steer { g with events := [], ticks := g.ticks + 1 } input
      have playing' := (phase_of_setting steered).trans playing
      have playing'' := (phase_of_setting (setting_advanceBlocks _)).trans playing'
      exact (steps_steer _ input).trans <| (steps_advanceBlocks _ playing').trans <|
        (steps_advancePuffle _ playing'').trans (steps_checkStuck _)

end IceMaze.Game
