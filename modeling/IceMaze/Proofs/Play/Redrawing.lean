import IceMaze.Proofs.Board.Sweep
import IceMaze.Proofs.Play.Tick

/-!
What a level looks like when it has just been drawn.

A level is drawn when it is loaded (`Loads`) and when it is reset (`Resets`). `Drawing` is what is
drawn. It depends on the layout and on the coin bag being earned, and both stay as they are until
another level is loaded, so every reset leads back to the game as it was loaded
(`redraw_isolation`). What is counted from the drawing on is proved with
`Run.Reachable.by_operations`.
-/

namespace IceMaze

/-- The fields of a game that drawing a level sets. -/
structure Drawing where
  board : Board
  puffle : Puffle
  blocks : List Block
  melted : Nat
  pointsInLevel : Nat
  stuckCheck : Bool
  deriving DecidableEq

/-- The start of a level, with its coin bag if it is earned. -/
def Level.drawing (l : Level) (earned : Bool) : Drawing where
  board := Game.openingBoard l earned
  puffle := .new l.spawn
  blocks := l.blocks.map .new
  melted := 0
  pointsInLevel := 0
  stuckCheck := false

/-- The settings of one load of a level differ by how often it has been failed. -/
def Setting.Retries (s t : Setting) : Prop := ∃ n, t = { s with timesFailed := n }

theorem Setting.Retries.of_eq {s t : Setting} (h : t = s) : s.Retries t := ⟨s.timesFailed, h⟩

theorem Setting.Retries.trans {s t u : Setting} (first : s.Retries t) (second : t.Retries u) :
    s.Retries u := by
  obtain ⟨_, rfl⟩ := first
  obtain ⟨n, rfl⟩ := second
  exact ⟨n, rfl⟩

namespace Game

variable {g g' : Game}

def drawing (g : Game) : Drawing where
  board := g.board
  puffle := g.puffle
  blocks := g.blocks
  melted := g.melted
  pointsInLevel := g.pointsInLevel
  stuckCheck := g.stuckCheck

theorem ext_setting_drawing (setting : g'.setting = g.setting) (drawing : g'.drawing = g.drawing) :
    g' = { g with ticks := g'.ticks, events := g'.events, notes := g'.notes } := by
  cases g
  cases g'
  simp only [Game.setting, Setting.mk.injEq] at setting
  simp only [Game.drawing, Drawing.mk.injEq] at drawing
  simp [setting, drawing]

@[simp] theorem drawing_emit (e : Event) : (g.emit e).drawing = g.drawing := rfl

@[simp] theorem drawing_note (n : Note) : (g.note n).drawing = g.drawing := rfl

theorem drawing_redraw {l : Level} (h : g.layout = some l) :
    g.redraw.drawing = l.drawing g.solvedPrevious := by
  unfold redraw
  rw [h]
  dsimp only
  rw [Board.drawOver_eq]
  split <;> rfl

theorem board_of_drawn {l : Level} (drawn : g.drawing = l.drawing g.solvedPrevious) :
    g.board = openingBoard l g.solvedPrevious := congrArg Drawing.board drawn

theorem drawing_load (n : Nat) (l : Level) :
    (g.load n l).drawing = (l.variant (g.flipCoin l).1).drawing g.solvedPrevious := by
  simp only [load, drawing_emit, drawing_note]
  rw [drawing_redraw rfl]

theorem drawing_resetLevel {l : Level} (playing : g.phase = .playing) (h : g.layout = some l) :
    g.resetLevel.drawing = l.drawing g.solvedPrevious := by
  unfold resetLevel
  rw [if_neg (by simp [playing, h])]
  simp only [drawing_emit, drawing_note]
  exact drawing_redraw h

theorem board_load (g : Game) (n : Nat) (l : Level) :
    (g.load n l).board = openingBoard (l.variant (g.flipCoin l).1) g.solvedPrevious := by
  have drawn := drawing_load (g := g) n l
  simp only [Game.drawing, Level.drawing, Drawing.mk.injEq] at drawn
  exact drawn.1

theorem board_resetLevel {l : Level} (playing : g.phase = .playing) (h : g.layout = some l) :
    g.resetLevel.board = openingBoard l g.solvedPrevious := by
  have drawn := drawing_resetLevel playing h
  simp only [Game.drawing, Level.drawing, Drawing.mk.injEq] at drawn
  exact drawn.1

/-- A turn ends the game, or it draws a level and says so. -/
theorem Turn.drawn {levels : List Level} (turn : Turn g g') (loaded : g.setting.Loaded levels) :
    (∃ es e l, g'.events = g.events ++ es ++ [e] ∧ e.opensLevel = true ∧ g'.layout = some l ∧
      g'.drawing = l.drawing g'.solvedPrevious) ∨
    g' = g.complete.finish := by
  have reset (f : Game) (es : List Event) (setting : f.setting = g.setting)
      (told : f.events = g.events ++ es) (playing : g.phase = .playing) :
      ∃ es e l, f.resetLevel.events = g.events ++ es ++ [e] ∧ e.opensLevel = true ∧
        f.resetLevel.layout = some l ∧
        f.resetLevel.drawing = l.drawing f.resetLevel.solvedPrevious := by
    obtain ⟨l, layout⟩ := loaded.exists_layout playing
    have playing' : f.phase = .playing := (phase_of_setting setting).trans playing
    have layout' : f.layout = some l := (layout_of_setting setting).trans layout
    have solved := congrArg Setting.solvedPrevious
      (f.setting_resetLevel_of_playing playing' layout')
    refine ⟨es, .levelReset f.levelNumber (f.timesFailed + 1), l, ?_, rfl,
      f.layout_resetLevel.trans layout', ?_⟩
    · rw [events_resetLevel_of_playing f playing' layout', told]
    · exact (drawing_resetLevel playing' layout').trans (congrArg l.drawing solved.symm)
  have load (f : Game) (es : List Event) (told : f.events = g.events ++ es) (n : Nat) (l : Level) :
      ∃ es e l', (f.load n l).events = g.events ++ es ++ [e] ∧ e.opensLevel = true ∧
        (f.load n l).layout = some l' ∧
        (f.load n l).drawing = l'.drawing (f.load n l).solvedPrevious := by
    refine ⟨es, .levelStarted n (f.flipCoin l).1, _, ?_, rfl, f.layout_load n l, ?_⟩
    · rw [events_load, told]
    · rw [solvedPrevious_load]
      exact drawing_load n l
  cases turn with
  | fail playing => exact .inl (reset _ _ rfl (events_emit _ _) playing)
  | reset playing => exact .inl (reset g [] rfl (List.append_nil _).symm playing)
  | load => exact .inl (load g [] (List.append_nil _).symm _ _)
  | next => exact .inl (load _ _ (events_complete g) _ _)
  | conclude => exact .inr rfl

theorem nextLevel?_congr (h : g'.setting = g.setting) :
    g'.level? (g'.levelNumber + 1) = g.level? (g.levelNumber + 1) := by
  have levels : g'.levels = g.levels := congrArg Setting.levels h
  have number : g'.levelNumber = g.levelNumber := levelNumber_of_setting h
  unfold level?
  rw [levels, number]

/-! ## Actions that draw -/

/-- The action loads a level. -/
inductive Loads (g : Game) : Action → Prop where
  | start {n l} (found : g.level? n = some l) : Loads g (.start n)
  | next {l} (found : g.level? (g.levelNumber + 1) = some l) : Loads g .next
  /-- The puffle lands on a goal, and there is another level. -/
  | goal {input c l} (lands : g.landsOn? input = some c)
      (goal : (g.approach input).board.kind? c = some .goal)
      (found : g.level? (g.levelNumber + 1) = some l) : Loads g (.tick input)

/-- The action resets the level in play. -/
inductive Resets (g : Game) : Action → Prop where
  | call (playing : g.phase = .playing) : Resets g .reset
  | restart {input} (playing : g.phase = .playing) (asked : input.reset = true) :
      Resets g (.tick input)
  | stuck {input c} (told : .stuck c ∈ (g.tick input).events) : Resets g (.tick input)

theorem Loads.act_eq {a : Action} (h : g.Loads a) :
    ∃ (f : Game) (n : Nat) (l : Level), g.act a = f.load n l := by
  cases h with
  | @start n l found => exact ⟨g, n, l, by simp [act, startLevel, found]⟩
  | next found =>
    obtain ⟨l, _, next⟩ | ⟨last, _⟩ := g.goToNextLevel_cases
    · exact ⟨_, _, _, next⟩
    · cases found.symm.trans last
  | @goal input c l lands goal found =>
    obtain ⟨⟨playing, going⟩, m, moves, done, rfl⟩ := landsOn?_eq_some.1 lands
    have landed := advancePuffle_goal moves done goal
    have setting : (((g.approach input).arrive m.target).takeBag m.target).setting = g.setting := by
      simp [setting_approach]
    obtain ⟨l, _, next⟩ | ⟨last, _⟩ :=
      (((g.approach input).arrive m.target).takeBag m.target).goToNextLevel_cases
    · rw [act, tick_eq playing going, beforeCheck, landed, next,
        checkStuck_of_not_pending (stuckCheck_load _ _)]
      exact ⟨_, _, _, rfl⟩
    · rw [nextLevel?_congr setting] at last
      cases found.symm.trans last

theorem Loads.drawn {a : Action} (h : g.Loads a) :
    ∃ l, (g.act a).layout = some l ∧
      (g.act a).drawing = l.drawing (g.act a).solvedPrevious := by
  obtain ⟨f, n, l, loaded⟩ := h.act_eq
  rw [loaded, f.solvedPrevious_load]
  exact ⟨_, f.layout_load n l, drawing_load n l⟩

theorem Resets.act_eq {a : Action} (h : g.Resets a) :
    g.phase = .playing ∧ ∃ f : Game, f.setting = g.setting ∧ g.act a = f.resetLevel := by
  cases h with
  | call playing => exact ⟨playing, g, rfl, rfl⟩
  | restart playing asked =>
    refine ⟨playing, _, ?_, tick_restart playing asked⟩
    rfl
  | stuck told =>
    obtain ⟨playing, _, setting, _, _, _, failed⟩ := tick_of_stuck told
    exact ⟨playing, _, (setting_reportStuck _).trans setting, failed⟩

theorem Resets.drawn {a : Action} {l : Level} (h : g.Resets a) (layout : g.layout = some l) :
    (g.act a).setting = { g.setting with timesFailed := g.timesFailed + 1 } ∧
      (g.act a).drawing = l.drawing g.solvedPrevious := by
  obtain ⟨playing, f, setting, reset⟩ := h.act_eq
  have playing' : f.phase = .playing := (phase_of_setting setting).trans playing
  have layout' : f.layout = some l := (layout_of_setting setting).trans layout
  have failed : f.timesFailed = g.timesFailed := timesFailed_of_setting setting
  have solved : f.solvedPrevious = g.solvedPrevious := solvedPrevious_of_setting setting
  rw [reset]
  constructor
  · rw [f.setting_resetLevel_of_playing playing' layout', setting, failed]
  · rw [← solved]
    exact drawing_resetLevel playing' layout'

/-! ## Between loading and resetting -/

theorem retries_resetLevel (g : Game) : g.setting.Retries g.resetLevel.setting := by
  rw [setting_resetLevel]
  split
  · exact .of_eq rfl
  · exact ⟨_, rfl⟩

theorem retries_checkStuck (g : Game) : g.setting.Retries g.checkStuck.setting := by
  obtain ⟨_, same⟩ | ⟨_, _, _, ⟨_, same⟩ | ⟨_, same⟩⟩ := g.checkStuck_cases
  · exact .of_eq (by rw [same])
  · exact .of_eq (by rw [same]; rfl)
  · rw [same]
    exact retries_resetLevel _

theorem not_loads_tick {input : Input} (h : g.landsOn? input = none) : ¬g.Loads (.tick input) := by
  intro loads
  cases loads with
  | goal lands => cases h.symm.trans lands

/-- An action that loads no level keeps the setting, unless it ends the game. -/
theorem retries_act {a : Action} (h : ¬g.Loads a) :
    g.setting.Retries (g.act a).setting ∨ (g.act a).phase = .finished := by
  cases a with
  | start n =>
    refine .inl (.of_eq ?_)
    cases found : g.level? n with
    | none => simp [act, startLevel, found]
    | some l => exact absurd (.start found) h
  | reset => exact .inl (retries_resetLevel g)
  | next =>
    obtain ⟨l, found, _⟩ | ⟨_, ended⟩ := g.goToNextLevel_cases
    · exact absurd (.next found) h
    · right
      rw [act, ended]
      rfl
  | attempt d =>
    refine .inl (.of_eq ?_)
    rw [act]
    cases started : g.attemptMove d with
    | none => rfl
    | some g' => exact setting_of_attemptMove started
  | tick input =>
    by_cases playing : g.phase = .playing
    · rw [act]
      cases restart : input.reset with
      | true =>
        rw [tick_restart playing restart]
        exact .inl (retries_resetLevel _)
      | false =>
        rw [tick_eq playing restart]
        have approached := g.setting_approach input
        obtain same | ⟨m, moves, done, goal, gone⟩ :=
          (g.approach input).advance_advancePuffle.setting_cases
        · exact .inl ((Setting.Retries.of_eq (same.trans approached)).trans (retries_checkStuck _))
        · have setting :
              (((g.approach input).arrive m.target).takeBag m.target).setting = g.setting := by
            simp [approached]
          obtain ⟨l, found, _⟩ | ⟨_, ended⟩ :=
            (((g.approach input).arrive m.target).takeBag m.target).goToNextLevel_cases
          · rw [nextLevel?_congr setting] at found
            have lands := landsOn?_eq_some.2 ⟨⟨playing, restart⟩, m, moves, done, rfl⟩
            exact absurd (.goal lands goal found) h
          · right
            rw [beforeCheck, gone, ended]
            simp [checkStuck, finish, note, emit]
    · rw [act, tick_idle playing]
      exact .inl (.of_eq rfl)

/-- What becomes of a game until another level is loaded. -/
inductive SameLoad (g : Game) : Game → Prop where
  | loaded : SameLoad g g
  | next {h} (a : Action) : SameLoad g h → ¬h.Loads a → SameLoad g (h.act a)

theorem SameLoad.retries {h : Game} (same : g.SameLoad h) :
    g.setting.Retries h.setting ∨ h.phase = .finished := by
  induction same with
  | loaded => exact .inl (.of_eq rfl)
  | next a _ plays ih =>
    obtain stays | ended := retries_act plays
    · obtain before | finished := ih
      · exact .inl (before.trans stays)
      · right
        obtain ⟨n, stays⟩ := stays
        exact (congrArg Setting.phase stays).trans finished
    · exact .inr ended

end Game

/-! ## Runs -/

section
variable {levels : List Level} {rules : Rules} {seed : UInt64} {g₀ : Game} {r : Run}

/-- What holds when a level has been drawn, and is kept by each operation and by the end of the
game, holds in every run. -/
theorem Run.Reachable.by_operations {P : List Event → Game → Prop}
    (new : Game.new levels rules seed = .ok g₀) (h : Run.Reachable g₀ r) (start : P [] g₀)
    (clear : ∀ log g, P log g → P log { g with events := [] })
    (drawn : ∀ log e (g : Game) l, e.opensLevel = true → g.layout = some l →
      g.drawing = l.drawing g.solvedPrevious → P (log ++ [e]) g)
    (operation : ∀ log es g g', Game.Operation g es g' → P log g → P (log ++ es) g')
    (ended : ∀ log (g : Game), P log g →
      P (log ++ [.levelCompleted g.levelNumber (g.melted = g.total) (g.pointsInLevel + g.bonus),
        .allLevelsComplete g.complete.score]) g.complete.finish) :
    P r.events r.game := by
  apply h.by_turns new start clear operation
  intro past g g' turn loaded holds
  obtain ⟨es, e, l, events, opens, layout, drawing⟩ | rfl := turn.drawn loaded
  · rw [events, ← List.append_assoc]
    exact drawn _ e g' l opens layout drawing
  · rw [Game.events_finish, Game.events_complete, List.append_assoc, ← List.append_assoc]
    exact ended _ g holds

/-- A level is always drawn in the same way, and a reset leads back to the game as it was when the
level was loaded. -/
theorem redraw_isolation (new : Game.new levels rules seed = .ok g₀) (h : Run.Reachable g₀ r) :
    (∀ a, r.game.Loads a ∨ r.game.Resets a →
      ∃ l, (r.game.act a).layout = some l ∧
        (r.game.act a).drawing = l.drawing (r.game.act a).solvedPrevious) ∧
    (∀ a, r.game.Loads a → ∀ g, (r.game.act a).SameLoad g → ∀ b, g.Resets b →
      g.act b = { r.game.act a with
        timesFailed := g.timesFailed + 1
        ticks := (g.act b).ticks
        events := (g.act b).events
        notes := (g.act b).notes } ∧
      (g.act b).setting = { g.setting with timesFailed := g.timesFailed + 1 } ∧
      (g.act b).score = (g.act b).pointsAtStart) := by
  constructor
  · rintro a (loads | resets)
    · exact loads.drawn
    · obtain ⟨playing, _⟩ := resets.act_eq
      obtain ⟨l, layout⟩ := (h.loaded new).exists_layout playing
      obtain ⟨setting, drawn⟩ := resets.drawn layout
      refine ⟨l, (congrArg Setting.layout setting).trans layout, ?_⟩
      rw [drawn]
      exact congrArg l.drawing (congrArg Setting.solvedPrevious setting).symm
  · intro a loads g same b resets
    obtain ⟨l, layout, loaded⟩ := loads.drawn
    obtain ⟨playing, _⟩ := resets.act_eq
    obtain ⟨n, stays⟩ | ended := same.retries
    · have layout' : g.layout = some l := (congrArg Setting.layout stays).trans layout
      have solved : g.solvedPrevious = (r.game.act a).solvedPrevious :=
        congrArg Setting.solvedPrevious stays
      obtain ⟨setting, drawn⟩ := resets.drawn layout'
      refine ⟨?_, setting, ?_⟩
      · apply Game.ext_setting_drawing (g := { r.game.act a with timesFailed := g.timesFailed + 1 })
        · rw [setting, stays]
          rfl
        · rw [drawn, solved]
          exact loaded.symm
      · have points : (g.act b).pointsInLevel = 0 := congrArg Drawing.pointsInLevel drawn
        rw [Game.score, points, Nat.add_zero]
    · cases playing.symm.trans ended

end

/-- Two tiles of ice between walls. -/
def pond : Level where
  origin := .zero
  spawn := .zero
  tiles := .set (.set (.filled 3 2 .wall) 0 0 .ice) 1 0 .ice
  keys := []
  blocks := []
  bag := none
  patches := []

/-- The other tile of ice is a dead end, and the tick that finds out restores the first one. -/
theorem redraw_isolation_in_pond :
    ∃ g₀ g, Game.new [pond] .standard 0 = .ok g₀ ∧ (g₀.act (.start 1)).SameLoad g ∧
      g.Resets (.tick (.hold .right)) ∧ g.melted = 1 ∧ g.puffle.motion.isSome ∧
      (g.act (.tick (.hold .right))).drawing = (g₀.act (.start 1)).drawing := by
  obtain ⟨g₀, new⟩ : ∃ g₀, Game.new [pond] .standard 0 = .ok g₀ := ⟨_, rfl⟩
  let walk := Action.tick (.hold .right)
  have loads : g₀.Loads (.start 1) := .start (l := pond) (by cases new; rfl)
  have same : (g₀.act (.start 1)).SameLoad ((((g₀.act (.start 1)).act walk).act walk).act walk) := by
    refine .next _ (.next _ (.next _ .loaded ?_) ?_) ?_ <;> refine Game.not_loads_tick ?_ <;>
      cases new <;> decide +kernel
  have resets : ((((g₀.act (.start 1)).act walk).act walk).act walk).Resets walk :=
    .stuck (c := ⟨1, 0⟩) (by cases new; decide +kernel)
  refine ⟨g₀, _, new, same, resets, ?_, ?_, ?_⟩
  · cases new
    decide +kernel
  · cases new
    decide +kernel
  · have reset := ((redraw_isolation new .start).2 _ loads _ same _ resets).1
    rw [reset]
    simp only [Game.drawing, Run.start]

end IceMaze
