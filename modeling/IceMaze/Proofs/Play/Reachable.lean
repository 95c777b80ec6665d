import IceMaze.Proofs.Play.Events

/-!
Runs of a game, and what holds in all of them.

A run starts with a new game and takes any actions in any order. `Reachable.invariant` carries a
property of the game and of all the events so far through a run; it asks for one step only.
`Loaded` is the first such property: what a game has loaded is a level of its registry.
-/

namespace IceMaze

/-- What can be done to a game from outside. -/
inductive Action where
  | start (number : Nat)
  | tick (input : Input)
  | reset
  | next
  | attempt (d : Direction)

/-- The game after an action. One that is refused leaves it as it is. -/
def Game.act (g : Game) : Action → Game
  | .start n =>
    match g.startLevel n with
    | .ok g' => g'
    | .error _ => g
  | .tick input => g.tick input
  | .reset => g.resetLevel
  | .next => g.goToNextLevel
  | .attempt d => (g.attemptMove d).getD g

namespace Run

/-- The run after an action. Only a tick drops the events before it from the game. -/
def act (r : Run) : Action → Run
  | .tick input => r.tick input
  | a => ⟨r.game.act a, r.events ++ (r.game.act a).events.drop r.game.events.length⟩

/-- The events that an action adds to those of a run. -/
def told (r : Run) : Action → List Event
  | .tick input => (r.game.tick input).events
  | a => (r.game.act a).events.drop r.game.events.length

theorem told_eq {r : Run} {a : Action} (h : ∀ input, a ≠ .tick input) :
    r.told a = (r.game.act a).events.drop r.game.events.length := by
  cases a with
  | tick input => exact absurd rfl (h input)
  | start | reset | next | attempt => rfl

theorem events_act (r : Run) (a : Action) : (r.act a).events = r.events ++ r.told a := by
  cases a <;> rfl

theorem game_act (r : Run) (a : Action) : (r.act a).game = r.game.act a := by
  cases a <;> rfl

inductive Reachable (g₀ : Game) : Run → Prop where
  | start : Reachable g₀ (.start g₀)
  | next {r : Run} (a : Action) : Reachable g₀ r → Reachable g₀ (r.act a)

theorem Reachable.actions {g₀ : Game} (as : List Action) :
    Reachable g₀ (as.foldl act (.start g₀)) :=
  List.foldlRecOn _ _ .start fun _ h a _ => .next a h

theorem Reachable.ticked {g₀ : Game} {r : Run} (h : Reachable g₀ r) (inputs : List Input) :
    Reachable g₀ (inputs.foldl tick r) :=
  List.foldlRecOn _ _ h fun _ h input _ => .next (.tick input) h

theorem steps_act (g : Game) {a : Action} (h : ∀ input, a ≠ .tick input) :
    Game.Steps g (g.act a) := by
  cases a with
  | start n =>
    dsimp only [Game.act]
    cases started : g.startLevel n with
    | ok g' => exact .single (Game.step_of_startLevel started)
    | error _ => exact .refl
  | tick input => exact absurd rfl (h input)
  | reset => exact Game.steps_resetLevel g
  | next => exact .single (Game.step_goToNextLevel g)
  | attempt d =>
    dsimp only [Game.act]
    cases started : g.attemptMove d with
    | none => exact .refl
    | some g' => exact .single (Game.step_of_attemptMove started)

theorem events_prefix_steps {g g' : Game} (h : Game.Steps g g') : g.events <+: g'.events := by
  induction h with
  | refl => exact List.prefix_rfl
  | tail _ step ih => exact ih.trans (Game.events_prefix step)

section
variable {P : List Event → Game → Prop}

/-- Whatever came before, a step keeps `P` of all the events and of the game. -/
def Keeps (P : List Event → Game → Prop) : Prop :=
  ∀ past g g', Game.Step g g' → P (past ++ g.events) g → P (past ++ g'.events) g'

theorem Keeps.steps (keeps : Keeps P) {g g' : Game} (h : Game.Steps g g') (past : List Event)
    (hg : P (past ++ g.events) g) : P (past ++ g'.events) g' := by
  induction h with
  | refl => exact hg
  | tail _ step ih => exact keeps past _ _ step ih

/-- What a new game satisfies and every step keeps holds in every run. -/
theorem Reachable.invariant {g₀ : Game} {r : Run} (h : Reachable g₀ r) (silent : g₀.events = [])
    (start : P [] g₀) (clear : ∀ log g, P log g → P log { g with events := [] })
    (keeps : Keeps P) : P r.events r.game := by
  suffices ∃ past, r.events = past ++ r.game.events ∧ P r.events r.game from this.choose_spec.2
  induction h with
  | start => exact ⟨[], by simp [Run.start, silent], start⟩
  | @next r a _ ih =>
    obtain ⟨past, split, hr⟩ := ih
    by_cases h : ∃ input, a = .tick input
    · obtain ⟨input, rfl⟩ := h
      have cleared := clear r.events r.game hr
      exact ⟨r.events, rfl, keeps.steps (Game.steps_tick r.game input) r.events
        (by simpa using cleared)⟩
    · have steps := steps_act r.game (a := a) fun input e => h ⟨input, e⟩
      obtain ⟨es, added⟩ := events_prefix_steps steps
      have act : r.act a = ⟨r.game.act a, r.events ++ es⟩ := by
        unfold Run.act
        split
        · exact absurd ⟨_, rfl⟩ h
        · rw [← added, List.drop_left]
      have log : r.events ++ es = past ++ (r.game.act a).events := by
        rw [split, ← added, List.append_assoc]
      rw [act]
      refine ⟨past, log, ?_⟩
      dsimp only
      rw [log]
      exact keeps.steps steps past (split ▸ hr)

/-- The same for a property of the game alone. -/
theorem Reachable.game_invariant {g₀ : Game} {r : Run} {Q : Game → Prop} (h : Reachable g₀ r)
    (silent : g₀.events = []) (start : Q g₀) (clear : ∀ g, Q g → Q { g with events := [] })
    (keeps : ∀ g g', Game.Step g g' → Q g → Q g') : Q r.game :=
  h.invariant (P := fun _ => Q) silent start (fun _ => clear) fun _ => keeps

end

end Run

/-! ## What a game has loaded -/

/-- The registry stays as it is, and is not empty. A layout is a variant of the level in play, with
its total, and a game without one has not been started. -/
structure Setting.Loaded (levels : List Level) (s : Setting) : Prop where
  levels_eq : s.levels = levels
  levels_ne : levels ≠ []
  layout_eq : ∀ l, s.layout = some l → ∃ m, 0 < s.levelNumber ∧
    levels[s.levelNumber - 1]? = some m ∧ l = m.variant s.altApplied ∧ s.total = l.totalTileCount
  idle : s.layout = none → s.phase = .idle ∧ s.levelNumber = 0

theorem Setting.Loaded.exists_layout {levels : List Level} {s : Setting} (h : s.Loaded levels)
    (playing : s.phase = .playing) : ∃ l, s.layout = some l := by
  cases layout : s.layout with
  | none => cases playing.symm.trans (h.idle layout).1
  | some l => exact ⟨l, rfl⟩

namespace Game

/-- A step changes the setting only by resetting, loading or ending. -/
theorem Step.setting_cases {g g' : Game} (h : Step g g') :
    g'.setting = g.setting ∨
    (∃ h : Game, h.setting = g.setting ∧ g' = h.resetLevel) ∨
    (∃ h n l, (h = g ∨ h = g.complete) ∧ h.level? n = some l ∧ g' = h.load n l) ∨
    (g.level? (g.levelNumber + 1) = none ∧ g' = g.complete.finish) := by
  cases h with
  | countTick | dropMomentum | glide | walk | leaveBoard | forgetStuckCheck => exact .inl rfl
  | startMove d => exact .inl (setting_startMove g d)
  | slide d => exact .inl (setting_pushBlock _ _ _)
  | land => exact .inl (setting_landBlock _ _ _ _)
  | reachGoal | enterLock | enterTeleporter | enterPlain => exact .inl (by simp)
  | fail => exact .inr (.inl ⟨_, by simp, rfl⟩)
  | reset => exact .inr (.inl ⟨g, rfl, rfl⟩)
  | load found => exact .inr (.inr (.inl ⟨g, _, _, .inl rfl, found, rfl⟩))
  | next found => exact .inr (.inr (.inl ⟨_, _, _, .inr rfl, found, rfl⟩))
  | conclude last => exact .inr (.inr (.inr ⟨last, rfl⟩))

theorem level?_eq_some {g : Game} {n : Nat} {l : Level} :
    g.level? n = some l ↔ 0 < n ∧ g.levels[n - 1]? = some l := by
  unfold level?
  split <;> simp_all [Nat.pos_iff_ne_zero]

theorem Step.loaded {levels : List Level} {g g' : Game} (step : Step g g')
    (h : g.setting.Loaded levels) : g'.setting.Loaded levels := by
  rcases step.setting_cases with same | ⟨f, same, rfl⟩ | ⟨f, n, l, hf, found, rfl⟩ | ⟨last, rfl⟩
  · exact same ▸ h
  · rw [setting_resetLevel]
    split
    · exact same ▸ h
    · rw [same]
      exact ⟨h.levels_eq, h.levels_ne, h.layout_eq, h.idle⟩
  · have levels_eq : f.levels = levels := by
      rcases hf with rfl | rfl <;> exact h.levels_eq
    obtain ⟨pos, found⟩ := level?_eq_some.1 found
    rw [setting_load]
    refine ⟨levels_eq, h.levels_ne, fun l' hl' => ?_, fun none => by cases none⟩
    cases hl'
    exact ⟨l, pos, levels_eq ▸ found, rfl, rfl⟩
  · refine ⟨h.levels_eq, h.levels_ne, h.layout_eq, fun none => ?_⟩
    -- the level after none would be the first, which the registry has
    obtain ⟨_, number⟩ := h.idle none
    have number : g.levelNumber = 0 := number
    have levels_eq : g.levels = levels := h.levels_eq
    have first : g.levels[0]? = Option.none := by simpa [level?, number] using last
    exact absurd (levels_eq ▸ List.getElem?_eq_none_iff.1 first)
      (by simpa using h.levels_ne)

theorem Step.rules_eq {g g' : Game} (step : Step g g') : g'.rules = g.rules := by
  rcases step.setting_cases with same | ⟨f, same, rfl⟩ | ⟨f, n, l, hf, _, rfl⟩ | ⟨_, rfl⟩
  · exact rules_of_setting same
  · have rules := congrArg Setting.rules f.setting_resetLevel
    split at rules <;> exact rules.trans (rules_of_setting same)
  · rw [rules_load]
    rcases hf with rfl | rfl <;> rfl
  · rfl

/-- A game before its first level. -/
structure Unstarted (levels : List Level) (rules : Rules) (g : Game) : Prop where
  levels_ne : levels ≠ []
  levels_eq : g.levels = levels
  rules_eq : g.rules = rules
  phase : g.phase = .idle
  number : g.levelNumber = 0
  layout : g.layout = none
  board : g.board = .empty
  melted : g.melted = 0
  silent : g.events = []

theorem unstarted_of_new {levels : List Level} {rules : Rules} {seed : UInt64} {g : Game}
    (h : Game.new levels rules seed = .ok g) : g.Unstarted levels rules := by
  unfold Game.new at h
  split at h
  · cases h
  · rename_i some
    cases h
    exact ⟨some, rfl, rfl, rfl, rfl, rfl, rfl, rfl, rfl⟩

theorem puffle_of_new {levels : List Level} {rules : Rules} {seed : UInt64} {g : Game}
    (h : Game.new levels rules seed = .ok g) : g.puffle = .new .zero := by
  unfold Game.new at h
  split at h
  · cases h
  · cases h
    rfl

theorem Unstarted.loaded {levels : List Level} {rules : Rules} {g : Game}
    (h : g.Unstarted levels rules) : g.setting.Loaded levels := by
  refine ⟨h.levels_eq, h.levels_ne, fun _ hl => ?_, fun _ => ⟨h.phase, h.number⟩⟩
  cases h.layout.symm.trans hl

end Game

theorem Run.Reachable.loaded {levels : List Level} {rules : Rules} {seed : UInt64} {g₀ : Game}
    {r : Run} (new : Game.new levels rules seed = .ok g₀) (h : Reachable g₀ r) :
    r.game.setting.Loaded levels := by
  have unstarted := Game.unstarted_of_new new
  exact h.game_invariant (Q := fun g => g.setting.Loaded levels) unstarted.silent unstarted.loaded
    (fun _ => id) fun _ _ step => step.loaded

theorem Run.Reachable.rules_eq {levels : List Level} {rules : Rules} {seed : UInt64} {g₀ : Game}
    {r : Run} (new : Game.new levels rules seed = .ok g₀) (h : Reachable g₀ r) :
    r.game.rules = rules := by
  have unstarted := Game.unstarted_of_new new
  exact h.game_invariant (Q := fun g => g.rules = rules) unstarted.silent unstarted.rules_eq
    (fun _ => id) fun _ _ step same => step.rules_eq.trans same

/-- The start of the first level. -/
theorem Run.start_eq {levels : List Level} {rules : Rules} {seed : UInt64} {g₀ : Game} {n : Nat}
    {l : Level} (new : Game.new levels rules seed = .ok g₀) (found : g₀.level? n = some l) :
    (Run.start g₀).act (.start n) =
      ⟨g₀.load n l, [.levelStarted n (g₀.flipCoin l).1]⟩ := by
  have silent := (Game.unstarted_of_new new).silent
  simp [Run.act, Run.start, Game.act, Game.startLevel, found, silent, Game.events_load]

end IceMaze
