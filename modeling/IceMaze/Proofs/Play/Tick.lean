import IceMaze.Proofs.Play.Operations

/-!
A tick, phase by phase.

First the puffle may set off and the blocks move (`approach`), then the puffle moves
(`beforeCheck`), and last comes the check. Only the check and a reset from outside set the player
back, so `tick_of_stuck` can say what a tick was like that tells of a stuck puffle.
-/

namespace IceMaze

/-- The level is lost and starts again. -/
def Event.isSetback : Event → Bool
  | .stuck _ | .levelReset .. => true
  | _ => false

namespace Game

variable {g g' : Game} {input : Input}

/-- The game in a tick when the puffle's part comes. -/
def approach (g : Game) (input : Input) : Game :=
  ({ g with events := [], ticks := g.ticks + 1 }.steer input).advanceBlocks

/-- The game in a tick before the check. -/
def beforeCheck (g : Game) (input : Input) : Game := (g.approach input).advancePuffle

theorem tick_idle (h : g.phase ≠ .playing) : g.tick input = { g with events := [] } := by
  simp [tick, h]

theorem tick_restart (playing : g.phase = .playing) (restart : input.reset = true) :
    g.tick input = { g with events := [], ticks := g.ticks + 1 }.resetLevel := by
  simp [tick, playing, restart]

theorem tick_eq (playing : g.phase = .playing) (going : input.reset = false) :
    g.tick input = (g.beforeCheck input).checkStuck := by
  simp [tick, playing, going, beforeCheck, approach]

theorem setting_approach (g : Game) (input : Input) :
    (g.approach input).setting = g.setting := by
  rw [approach, setting_advanceBlocks, setting_steer]
  rfl

theorem steps_approach (input : Input) (playing : g.phase = .playing) :
    Steps { g with events := [] } (g.approach input) := by
  have steered := setting_steer { g with events := [], ticks := g.ticks + 1 } input
  have playing' := (phase_of_setting steered).trans playing
  refine .trans (.single (.countTick playing)) ?_
  exact (steps_steer _ input).trans (steps_advanceBlocks _ playing')

theorem steps_beforeCheck (input : Input) (playing : g.phase = .playing) :
    Steps { g with events := [] } (g.beforeCheck input) := by
  have playing' := (phase_of_setting (g.setting_approach input)).trans playing
  exact (steps_approach input playing).trans (steps_advancePuffle _ playing')

/-- A relation of a game to what becomes of it that holds across everything that can happen in a
tick before the puffle's part. -/
structure Carries (R : Game → Game → Prop) : Prop where
  refl : ∀ g, R g g
  trans : ∀ {g h g'}, R g h → R h g' → R g g'
  setBlock : ∀ g i b, R g (g.setBlock i b)
  startMove : ∀ g d, R g (g.startMove d)
  pushBlock : ∀ g i d, R g (g.pushBlock i d)
  landBlock : ∀ g i b m, R g (g.landBlock i b m)

namespace Carries

variable {R : Game → Game → Prop} (h : Carries R)
include h

theorem steer (g : Game) (input : Input) : R g (g.steer input) := by
  obtain idle | ⟨d, _, started⟩ := g.steer_cases input
  · rw [idle]
    exact h.refl g
  · obtain ⟨_, moved⟩ := attemptMove_eq_some.1 started
    rw [← moved]
    exact h.startMove g d

theorem restartBlock (g : Game) (i : Nat) : R g (g.restartBlock i) := by
  unfold Game.restartBlock
  split
  · exact h.refl g
  · rename_i b _
    split
    · exact h.refl g
    · split
      · exact h.refl g
      · have dropped := h.setBlock g i { b with momentum := none }
        dsimp only
        split
        · exact h.trans dropped (h.pushBlock _ _ _)
        · exact dropped

theorem stepBlock (g : Game) (i : Nat) : R g (g.stepBlock i) := by
  unfold Game.stepBlock
  split
  · exact h.refl g
  · split
    · exact h.refl g
    · dsimp only
      split
      · exact h.landBlock g _ _ _
      · exact h.setBlock g _ _

theorem advanceAll (g : Game) (is : List Nat) : R g (is.foldl advanceBlock g) := by
  induction is generalizing g with
  | nil => exact h.refl g
  | cons i is ih => exact h.trans (h.trans (h.restartBlock g i) (h.stepBlock _ i)) (ih _)

theorem approach (g : Game) (input : Input) :
    R { g with events := [], ticks := g.ticks + 1 } (g.approach input) :=
  h.trans (h.steer _ input) (h.advanceAll _ _)

end Carries

namespace PlaysOn

theorem carries : Carries PlaysOn where
  refl := refl
  trans := trans
  setBlock _ _ _ := still rfl rfl rfl rfl rfl rfl
  startMove := startMove
  pushBlock := pushBlock
  landBlock := landBlock

theorem steer (g : Game) (input : Input) : g.PlaysOn (g.steer input) := carries.steer g input

theorem restartBlock (g : Game) (i : Nat) : g.PlaysOn (g.restartBlock i) := carries.restartBlock g i

theorem stepBlock (g : Game) (i : Nat) : g.PlaysOn (g.stepBlock i) := carries.stepBlock g i

theorem advanceAll (g : Game) (is : List Nat) : g.PlaysOn (is.foldl advanceBlock g) :=
  carries.advanceAll g is

theorem approach (g : Game) (input : Input) :
    { g with events := [] }.PlaysOn (g.approach input) := by
  have counted :
      { g with events := [] }.PlaysOn { g with events := [], ticks := g.ticks + 1 } :=
    still rfl rfl rfl rfl rfl rfl
  exact counted.trans (carries.approach g input)

end PlaysOn

/-- The cell on which a move of the puffle ends in a tick. -/
def landsOn? (g : Game) (input : Input) : Option Coord :=
  if g.phase = .playing ∧ input.reset = false then
    (g.approach input).puffle.motion.bind fun m => if m.step.isDone then some m.target else none
  else none

theorem landsOn?_eq_some {c : Coord} :
    g.landsOn? input = some c ↔ (g.phase = .playing ∧ input.reset = false) ∧
      ∃ m, (g.approach input).puffle.motion = some m ∧ m.step.isDone = true ∧ m.target = c := by
  unfold landsOn?
  split
  · rename_i active
    simp [active, Option.bind_eq_some_iff]
  · rename_i idle
    simp [idle]

/-- Only a landing on a goal changes the setting of the game. -/
theorem Advance.setting_cases (h : Advance g g') :
    g'.setting = g.setting ∨
      ∃ m, g.puffle.motion = some m ∧ m.step.isDone = true ∧
        g.board.kind? m.target = some .goal ∧
        g' = ((g.arrive m.target).takeBag m.target).goToNextLevel := by
  cases h with
  | rest | walk | leaveBoard => exact .inl rfl
  | @reachGoal m t moves done here goal =>
    exact .inr ⟨m, moves, done, by rw [Board.kind?, here, Option.map_some, goal], rfl⟩
  | enterLock | enterTeleporter | enterPlain => exact .inl (by simp)

theorem advancePuffle_goal {m : Motion} (moves : g.puffle.motion = some m)
    (done : m.step.isDone = true) (goal : g.board.kind? m.target = some .goal) :
    g.advancePuffle = ((g.arrive m.target).takeBag m.target).goToNextLevel := by
  obtain ⟨t, here, goal⟩ := Option.map_eq_some_iff.1 goal
  have advanced := g.advance_advancePuffle
  generalize g.advancePuffle = g' at advanced
  cases advanced <;> simp_all

/-! ## The check -/

/-- It is told that the puffle is stuck. -/
def reportStuck (g : Game) : Game :=
  ({ g with stuckCheck := false }.note (.stuck g.puffle.pos g.levelNumber)).emit
    (.stuck g.puffle.pos)

@[simp] theorem setting_reportStuck (g : Game) : g.reportStuck.setting = g.setting := rfl

@[simp] theorem puffle_reportStuck (g : Game) : g.reportStuck.puffle = g.puffle := rfl

@[simp] theorem blocks_reportStuck (g : Game) : g.reportStuck.blocks = g.blocks := rfl

@[simp] theorem canMove?_reportStuck (g : Game) (d : Direction) :
    g.reportStuck.canMove? d = g.canMove? d := rfl

@[simp] theorem events_reportStuck (g : Game) :
    g.reportStuck.events = g.events ++ [.stuck g.puffle.pos] := rfl

theorem checkStuck_cases (g : Game) :
    (¬(g.stuckCheck = true ∧ g.phase = .playing ∧ g.isSettled = true) ∧ g.checkStuck = g) ∨
    (g.stuckCheck = true ∧ g.phase = .playing ∧ g.isSettled = true ∧
      (g.isStuck = false ∧ g.checkStuck = { g with stuckCheck := false } ∨
        g.isStuck = true ∧ g.checkStuck = g.reportStuck.resetLevel)) := by
  unfold checkStuck
  split
  · rename_i due
    simp only [Bool.and_eq_true, decide_eq_true_eq] at due
    obtain ⟨⟨pending, playing⟩, settled⟩ := due
    refine .inr ⟨pending, playing, settled, ?_⟩
    have same : { g with stuckCheck := false }.isStuck = g.isStuck := rfl
    dsimp only
    rw [same]
    cases stuck : g.isStuck with
    | false => exact .inl ⟨rfl, rfl⟩
    | true => exact .inr ⟨rfl, rfl⟩
  · rename_i undue
    refine .inl ⟨fun ⟨pending, playing, settled⟩ => undue ?_, rfl⟩
    simp [pending, playing, settled]

theorem phase_checkStuck (g : Game) : g.checkStuck.phase = g.phase := by
  obtain ⟨_, same⟩ | ⟨_, _, _, ⟨_, same⟩ | ⟨_, same⟩⟩ := g.checkStuck_cases
  · rw [same]
  · rw [same]
  · rw [same, phase_resetLevel]
    exact phase_of_setting g.setting_reportStuck

theorem checkStuck_of_not_pending (h : g.stuckCheck = false) : g.checkStuck = g := by
  simp [checkStuck, h]

theorem stuckCheck_load (n : Nat) (l : Level) : (g.load n l).stuckCheck = false := rfl

/-- Whoever has left a level is not checked. -/
theorem checkStuck_goToNextLevel (g : Game) : g.goToNextLevel.checkStuck = g.goToNextLevel := by
  obtain ⟨l, _, next⟩ | ⟨_, last⟩ := g.goToNextLevel_cases
  · rw [next, checkStuck_of_not_pending (stuckCheck_load _ _)]
  · rw [last]
    simp [checkStuck, finish, note, emit]

/-! ## No setback before the check -/

/-- Nothing that is told within a level is a setback. -/
theorem isSetback_of_told {es : List Event} (told : ∀ e ∈ es, e.isOfPlay = true) :
    ∀ e ∈ es, e.isSetback = false := by
  intro e here
  have play := told e here
  cases e with
  | stuck | levelReset => cases play
  | _ => rfl

/-- Nothing that is told on the way from a game to another is a setback. -/
def Proceeds (g g' : Game) : Prop :=
  ∃ es, g'.events = g.events ++ es ∧ ∀ e ∈ es, e.isSetback = false

namespace Proceeds

theorem of_events (same : g'.events = g.events) : Proceeds g g' :=
  ⟨[], by rw [same, List.append_nil], by simp⟩

theorem trans {h : Game} (first : Proceeds g h) (second : Proceeds h g') : Proceeds g g' := by
  obtain ⟨es, told, quiet⟩ := first
  obtain ⟨fs, told', quiet'⟩ := second
  refine ⟨es ++ fs, ?_, List.forall_mem_append.2 ⟨quiet, quiet'⟩⟩
  rw [told', told, List.append_assoc]

theorem of_playsOn (h : g.PlaysOn g') : Proceeds g g' := by
  obtain ⟨es, told, plays⟩ := h
  exact ⟨es, told, isSetback_of_told plays.told⟩

theorem openLock (c : Coord) : Proceeds g (g.openLock c) :=
  ⟨_, events_openLock g c, by simp [Event.isSetback]⟩

theorem teleport (c d : Coord) : Proceeds g (g.teleport c d) :=
  ⟨_, events_teleport g c d, by simp [Event.isSetback]⟩

theorem goToNextLevel (g : Game) : Proceeds g g.goToNextLevel := by
  have completed : Proceeds g g.complete :=
    ⟨_, events_complete g, by simp [Event.isSetback]⟩
  apply completed.trans
  obtain ⟨l, _, next⟩ | ⟨_, last⟩ := g.goToNextLevel_cases
  · rw [next]
    exact ⟨_, events_load _ _ _, by simp [Event.isSetback]⟩
  · rw [last]
    exact ⟨_, events_finish _, by simp [Event.isSetback]⟩

theorem advancePuffle (g : Game) : Proceeds g g.advancePuffle := by
  have advanced := g.advance_advancePuffle
  generalize g.advancePuffle = g' at advanced
  cases advanced with
  | rest | walk | leaveBoard => exact of_events rfl
  | @reachGoal m => exact (of_playsOn (.reach g m.target)).trans (goToNextLevel _)
  | @enterLock m =>
    have reached := of_playsOn (.reach g m.target)
    exact reached.trans ((openLock m.target).trans (of_playsOn (.search _ m.target)))
  | @enterTeleporter m _ c =>
    have reached := of_playsOn (.reach g m.target)
    exact reached.trans ((teleport m.target c).trans (of_playsOn (.takeKey _ m.target)))
  | @enterPlain m => exact of_playsOn (.enterPlain g m.target)

theorem beforeCheck (g : Game) (input : Input) :
    Proceeds { g with events := [] } (g.beforeCheck input) :=
  (of_playsOn (.approach g input)).trans (advancePuffle (g.approach input))

end Proceeds

/-- All that a tick has told before the check is progress. -/
theorem isSetback_of_mem_beforeCheck {e : Event} (told : e ∈ (g.beforeCheck input).events) :
    e.isSetback = false := by
  obtain ⟨es, added, quiet⟩ := Proceeds.beforeCheck g input
  rw [added] at told
  exact quiet e told

/-! ## A tick that finds the puffle stuck -/

/-- A tick that has loaded a level or ended the game has nothing to check. -/
theorem setting_beforeCheck (pending : (g.beforeCheck input).stuckCheck = true)
    (playing : (g.beforeCheck input).phase = .playing) :
    (g.beforeCheck input).setting = g.setting := by
  rw [← g.setting_approach input]
  obtain same | ⟨m, _, _, _, gone⟩ := (g.approach input).advance_advancePuffle.setting_cases
  · exact same
  · rw [beforeCheck, gone] at pending playing
    obtain ⟨l, _, next⟩ | ⟨_, last⟩ :=
      (((g.approach input).arrive m.target).takeBag m.target).goToNextLevel_cases
    · rw [next, stuckCheck_load] at pending
      cases pending
    · rw [last] at playing
      cases playing

theorem tick_of_stuck {c : Coord} (told : .stuck c ∈ (g.tick input).events) :
    let h := g.beforeCheck input
    g.phase = .playing ∧ input.reset = false ∧ h.setting = g.setting ∧ h.isSettled = true ∧
      h.isStuck = true ∧ h.puffle.pos = c ∧ g.tick input = h.reportStuck.resetLevel := by
  intro h
  by_cases playing : g.phase = .playing
  · cases restart : input.reset with
    | true =>
      rw [tick_restart playing restart, events_resetLevel] at told
      split at told <;> simp at told
    | false =>
      have checked := tick_eq playing restart
      have progress : ∀ g' : Game, g'.events = h.events → .stuck c ∉ g'.events := by
        intro g' same told'
        have := isSetback_of_mem_beforeCheck (same ▸ told' : Event.stuck c ∈ h.events)
        simp [Event.isSetback] at this
      obtain ⟨_, same⟩ | ⟨pending, playing', settled, ⟨_, same⟩ | ⟨stuck, same⟩⟩ :=
        h.checkStuck_cases
      · exact absurd told (progress _ (by rw [checked, same]))
      · exact absurd told (progress _ (by rw [checked, same]))
      · have setting := setting_beforeCheck pending playing'
        rw [same] at checked
        rw [checked, events_resetLevel, events_reportStuck] at told
        simp only [List.mem_append, List.mem_singleton] at told
        obtain (early | now) | reset := told
        · exact absurd early (progress _ rfl)
        · cases now
          exact ⟨playing, rfl, setting, settled, stuck, rfl, checked⟩
        · split at reset <;> simp at reset
  · rw [tick_idle playing] at told
    cases told

/-! ## What a tick comes to -/

/-- The puffle lands on a goal in a tick. -/
def reachesGoal (g : Game) (input : Input) : Bool :=
  (g.landsOn? input).any fun c => (g.approach input).board.kind? c = some .goal

theorem reachesGoal_iff :
    g.reachesGoal input = true ↔
      ∃ c, g.landsOn? input = some c ∧ (g.approach input).board.kind? c = some .goal := by
  simp [reachesGoal, Option.any_eq_true]

/-- What a tick of a game in play comes to after some play. -/
inductive Outcome (g : Game) (input : Input) : Game → Prop where
  | goesOn {h} (short : g.reachesGoal input = false) (plays : { g with events := [] }.PlaysOn h) :
      Outcome g input h
  | restart {h} (short : g.reachesGoal input = false)
      (plays : { g with events := [] }.PlaysOn h) : Outcome g input h.resetLevel
  | fail {h} (short : g.reachesGoal input = false) (plays : { g with events := [] }.PlaysOn h) :
      Outcome g input h.reportStuck.resetLevel
  | goal {h} (reaches : g.reachesGoal input = true)
      (plays : { g with events := [] }.PlaysOn h) : Outcome g input h.goToNextLevel

theorem keyed_approach (playing : g.phase = .playing) (keyed : g.Keyed) :
    (g.approach input).Keyed :=
  (steps_approach input playing).keeps (fun _ _ step => step.keyed) (keyed.congr rfl fun _ => rfl)

theorem beforeCheck_of_reachesGoal (reaches : g.reachesGoal input = true) :
    ∃ h, { g with events := [] }.PlaysOn h ∧ g.beforeCheck input = h.goToNextLevel := by
  obtain ⟨c, lands, goal⟩ := reachesGoal_iff.1 reaches
  obtain ⟨_, m, moves, done, rfl⟩ := landsOn?_eq_some.1 lands
  exact ⟨_, (PlaysOn.approach g input).trans (.reach _ m.target),
    advancePuffle_goal moves done goal⟩

theorem short_of_goal (playing : g.phase = .playing) (going : input.reset = false)
    (short : g.reachesGoal input = false) {m : Motion}
    (moves : (g.approach input).puffle.motion = some m) (done : m.step.isDone = true) :
    (g.approach input).board.kind? m.target ≠ some .goal := by
  intro goal
  have lands := landsOn?_eq_some.2 ⟨⟨playing, going⟩, m, moves, done, rfl⟩
  cases short.symm.trans (reachesGoal_iff.2 ⟨_, lands, goal⟩)

theorem playsOn_beforeCheck (playing : g.phase = .playing) (going : input.reset = false)
    (keyed : g.Keyed) (short : g.reachesGoal input = false) :
    { g with events := [] }.PlaysOn (g.beforeCheck input) := by
  refine (PlaysOn.approach g input).trans ?_
  apply (g.approach input).advance_advancePuffle.plays (keyed_approach playing keyed)
  exact fun _ => short_of_goal playing going short

theorem outcome_tick (playing : g.phase = .playing) (keyed : g.Keyed) (input : Input) :
    Outcome g input (g.tick input) := by
  cases asked : input.reset with
  | true =>
    have short : g.reachesGoal input = false := by simp [reachesGoal, landsOn?, asked]
    rw [tick_restart playing asked]
    exact .restart short (.still rfl rfl rfl rfl rfl rfl)
  | false =>
    rw [tick_eq playing asked]
    cases goal : g.reachesGoal input with
    | true =>
      obtain ⟨h, plays, gone⟩ := beforeCheck_of_reachesGoal goal
      rw [gone, checkStuck_goToNextLevel]
      exact .goal goal plays
    | false =>
      have plays := playsOn_beforeCheck playing asked keyed goal
      obtain ⟨_, same⟩ | ⟨_, _, _, ⟨_, same⟩ | ⟨_, same⟩⟩ := (g.beforeCheck input).checkStuck_cases
      · rw [same]
        exact .goesOn goal plays
      · rw [same]
        exact .goesOn goal (plays.trans (.still rfl rfl rfl rfl rfl rfl))
      · rw [same]
        exact .fail goal plays

end Game
end IceMaze
