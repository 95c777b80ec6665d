import IceMaze.Proofs.Play.Frame
import IceMaze.Proofs.Play.Settling

/-!
Idling while everything rests.

Once everything rests no check is due (`Calm`), and a tick without input counts itself and does
nothing else (`Calm.tick_idle`). The clock is not seen by any later action, so a run that idles in
between comes to the same (`idle_ticks_are_silent`).
-/

namespace IceMaze

namespace Game

variable {g : Game} {a : Action}

/-! ## No check is due -/

/-- In play no check is due once everything rests. -/
def Calm (g : Game) : Prop :=
  g.phase = .playing → g.isSettled = true → g.stuckCheck = false

theorem Calm.of_checked (checked : g.stuckCheck = false) : g.Calm := fun _ _ => checked

theorem Calm.resetLevel (h : g.Calm) : g.resetLevel.Calm := by
  by_cases playing : g.phase = .playing
  · cases layout : g.layout with
    | none =>
      have refused : g.resetLevel = g := by simp [Game.resetLevel, layout]
      rwa [refused]
    | some l => exact .of_checked (congrArg Drawing.stuckCheck (drawing_resetLevel playing layout))
  · rwa [resetLevel_idle playing]

/-- The check is made as soon as everything rests. -/
theorem calm_checkStuck (g : Game) : g.checkStuck.Calm := by
  obtain ⟨undue, same⟩ | ⟨_, _, _, ⟨_, same⟩ | ⟨_, same⟩⟩ := g.checkStuck_cases
  · rw [same]
    intro playing settled
    exact Bool.eq_false_iff.2 fun pending => undue ⟨pending, playing, settled⟩
  · rw [same]
    exact .of_checked rfl
  · rw [same]
    exact Calm.resetLevel (.of_checked rfl)

theorem calm_startMove (d : Direction) : (g.startMove d).Calm := by
  intro _ settled
  rw [isSettled_iff, puffle_startMove] at settled
  cases settled.1

theorem Calm.act (h : g.Calm) (a : Action) : (g.act a).Calm := by
  cases a with
  | start n =>
    dsimp only [Game.act, startLevel]
    cases g.level? n with
    | none => exact h
    | some l => exact .of_checked (stuckCheck_load n l)
  | tick input =>
    dsimp only [Game.act]
    by_cases playing : g.phase = .playing
    · cases asked : input.reset with
      | true =>
        rw [tick_restart playing asked]
        exact Calm.resetLevel h
      | false =>
        rw [tick_eq playing asked]
        exact calm_checkStuck _
    · rw [tick_idle playing]
      exact h
  | reset => exact h.resetLevel
  | next =>
    dsimp only [Game.act]
    obtain ⟨l, _, next⟩ | ⟨_, last⟩ := g.goToNextLevel_cases
    · rw [next]
      exact .of_checked (stuckCheck_load _ l)
    · rw [last]
      nofun
  | attempt d =>
    dsimp only [Game.act]
    cases started : g.attemptMove d with
    | none => exact h
    | some g' =>
      obtain ⟨_, rfl⟩ := attemptMove_eq_some.1 started
      exact calm_startMove d

/-- While everything rests, a tick without input passes each of its phases by. -/
theorem Calm.tick_idle (h : g.Calm) (playing : g.phase = .playing)
    (settled : g.isSettled = true) :
    g.tick .idle = { g with ticks := g.ticks + 1, events := [] } := by
  let begun := { g with ticks := g.ticks + 1, events := [] }
  have rests : begun.puffle.motion = none := (isSettled_iff.1 settled).1
  have approached : g.approach .idle = begun := by
    rw [approach, steer_idle]
    exact advanceBlocks_of_settled (g := begun) settled
  have stayed : g.beforeCheck .idle = begun := by
    rw [beforeCheck, approached, advancePuffle, rests]
  rw [tick_eq playing rfl, stayed]
  exact checkStuck_of_not_pending (h playing settled)

/-! ## The clock -/

theorem rules_act (g : Game) (a : Action) : (g.act a).rules = g.rules := by
  have kept (f f' : Game) (step : Step f f') (same : f.rules = g.rules) : f'.rules = g.rules :=
    step.rules_eq.trans same
  by_cases ticks : ∃ input, a = .tick input
  · obtain ⟨input, rfl⟩ := ticks
    exact (steps_tick g input).keeps kept rfl
  · exact (Run.steps_act g fun input same => ticks ⟨input, same⟩).keeps kept rfl

theorem ticks_act (g : Game) (f : Frame) (a : Action) :
    (g.act a).ticks = ({ f with time := g.ticks }.after g.phase a).time := by
  have own := under_act g ⟨g.rules.puffleMoveTicks, g.ticks, []⟩ rfl a
  have same : g.under ⟨g.rules.puffleMoveTicks, g.ticks, []⟩ = g := rfl
  rw [same] at own
  rw [own]
  cases a <;> rfl

/-- The second list of actions is the first one with ticks without input put in, wherever the game
is in play and everything rests. -/
inductive Padded : Game → List Action → List Action → Prop
  | done {g : Game} : Padded g [] []
  | act {g : Game} {a : Action} {as bs : List Action} (rest : Padded (g.act a) as bs) :
      Padded g (a :: as) (a :: bs)
  | idle {g : Game} {as bs : List Action} (playing : g.phase = .playing)
      (settled : g.isSettled = true) (rest : Padded (g.tick .idle) as bs) :
      Padded g as (.tick .idle :: bs)

end Game

/-! ## Runs that idle -/

namespace Run

open Game

variable {r r' : Run} {n : Nat}

/-- The second run has come to the same, and its clock is `n` ticks ahead. -/
structure Idled (n : Nat) (r r' : Run) : Prop where
  framed : ∃ f : Frame, f.pace = r'.game.rules.puffleMoveTicks ∧ r.game = r'.game.under f
  ticks : r'.game.ticks = r.game.ticks + n
  events : r'.events = r.events

theorem Idled.refl (r : Run) : Idled 0 r r :=
  ⟨⟨⟨r.game.rules.puffleMoveTicks, r.game.ticks, []⟩, rfl, rfl⟩, rfl, rfl⟩

theorem Idled.game_eq (h : Idled n r r') :
    (∃ past, r.game.events = past ++ r'.game.events) ∧
      r'.game = { r.game with ticks := r.game.ticks + n, events := r'.game.events } := by
  obtain ⟨⟨f, suits, framed⟩, ticks, _⟩ := h
  rw [← ticks, framed]
  exact ⟨⟨f.past, rfl⟩, by simp [under, suits]⟩

/-- The same is told by what is done next. -/
theorem Idled.told (h : Idled n r r') (a : Action) : r'.told a = r.told a := by
  obtain ⟨⟨f, suits, framed⟩, _, _⟩ := h
  have same := under_act r'.game f suits a
  by_cases ticks : ∃ input, a = .tick input
  · obtain ⟨input, rfl⟩ := ticks
    have told : r.told (.tick input) = ((r'.game.under f).act (.tick input)).events :=
      congrArg (fun g => (g.tick input).events) framed
    rw [told, same]
    rfl
  · have other (input : Input) : a ≠ .tick input := fun same => ticks ⟨input, same⟩
    have before : (r'.game.under f).events = f.past ++ r'.game.events := rfl
    have after : ((r'.game.act a).under f).events = f.past ++ (r'.game.act a).events := rfl
    rw [told_eq other, told_eq other, framed, same, Frame.after_of_not_tick other, before, after,
      List.length_append, List.drop_length_add_append]

theorem Idled.act (h : Idled n r r') (a : Action) : Idled n (r.act a) (r'.act a) := by
  have told := h.told a
  obtain ⟨⟨f, suits, framed⟩, ticks, events⟩ := h
  refine ⟨⟨f.after r'.game.phase a, ?_, ?_⟩, ?_, ?_⟩
  · rw [game_act, rules_act, ← suits]
    cases a <;> rfl
  · rw [game_act, game_act, framed, under_act _ f suits]
  · have phase : r.game.phase = r'.game.phase := framed ▸ rfl
    rw [game_act, game_act, ticks_act _ f, ticks_act _ f, phase, ticks]
    cases a with
    | tick =>
      dsimp only [Frame.after]
      split <;> omega
    | start | reset | next | attempt => rfl
  · rw [events_act, events_act, events, told]

/-- The second run idles. -/
theorem Idled.idle (h : Idled n r r') (quiet : r'.game.tick .idle =
    { r'.game with ticks := r'.game.ticks + 1, events := [] }) :
    Idled (n + 1) r (r'.act (.tick .idle)) := by
  obtain ⟨⟨f, suits, framed⟩, ticks, events⟩ := h
  have idled : r'.act (.tick .idle) =
      ⟨{ r'.game with ticks := r'.game.ticks + 1, events := [] }, r'.events⟩ := by
    rw [Run.act, Run.tick, quiet, List.append_nil]
  rw [idled]
  refine ⟨⟨⟨f.pace, f.time, f.past ++ r'.game.events⟩, suits, ?_⟩, ?_, events⟩
  · rw [framed]
    simp [under]
  · dsimp only
    omega

section
variable {levels : List Level} {rules : Rules} {seed : UInt64} {g₀ : Game}

theorem Reachable.calm (new : Game.new levels rules seed = .ok g₀) (h : Reachable g₀ r) :
    r.game.Calm := by
  induction h with
  | start =>
    intro playing
    cases (unstarted_of_new new).phase.symm.trans playing
  | next a _ ih =>
    rw [game_act]
    exact ih.act a

/-- Every tick that is put in shows on the clock. -/
theorem idled_of_padded (new : Game.new levels rules seed = .ok g₀) {g : Game}
    {as bs : List Action} (padded : g.Padded as bs) (reached : Reachable g₀ r')
    (here : r'.game = g) (idled : Idled n r r') :
    ∃ k, bs.length = as.length + k ∧
      Idled (n + k) (as.foldl Run.act r) (bs.foldl Run.act r') := by
  induction padded generalizing r r' n with
  | done => exact ⟨0, rfl, idled⟩
  | @act g a as bs _ ih =>
    subst here
    obtain ⟨k, length, same⟩ := ih (.next a reached) (game_act r' a) (idled.act a)
    refine ⟨k, ?_, same⟩
    rw [List.length_cons, List.length_cons, length]
    omega
  | @idle g as bs playing settled _ ih =>
    subst here
    have quiet := (reached.calm new).tick_idle playing settled
    obtain ⟨k, length, same⟩ := ih (.next (.tick .idle) reached) rfl (idled.idle quiet)
    refine ⟨k + 1, ?_, ?_⟩
    · rw [List.length_cons, length]
      rfl
    · rwa [Nat.add_right_comm, Nat.add_assoc] at same

end

end Run

section
variable {levels : List Level} {rules : Rules} {seed : UInt64} {g₀ : Game} {r : Run}

/-- While everything rests, a tick without input moves the clock on and tells nothing. So a run with
such ticks put in tells the same and comes to the same game. Only the clock tells the difference,
and, up to the next tick, which of the events are those of the last one. -/
theorem idle_ticks_are_silent (new : Game.new levels rules seed = .ok g₀)
    (h : Run.Reachable g₀ r) :
    (r.game.phase = .playing → r.game.isSettled = true →
      r.game.tick .idle = { r.game with ticks := r.game.ticks + 1, events := [] }) ∧
    ∀ as bs, r.game.Padded as bs →
      let plain := as.foldl Run.act r
      let padded := bs.foldl Run.act r
      ∃ n, bs.length = as.length + n ∧ padded.events = plain.events ∧
        (∃ past, plain.game.events = past ++ padded.game.events) ∧
        padded.game =
          { plain.game with ticks := plain.game.ticks + n, events := padded.game.events } ∧
        ∀ input, padded.game.tick input =
          { plain.game.tick input with ticks := (plain.game.tick input).ticks + n } := by
  refine ⟨fun playing settled => (h.calm new).tick_idle playing settled, ?_⟩
  intro as bs inserted plain padded
  obtain ⟨n, length, idled⟩ := Run.idled_of_padded new inserted h rfl (.refl r)
  rw [Nat.zero_add] at idled
  obtain ⟨told, same⟩ := idled.game_eq
  refine ⟨n, length, idled.events, told, same, fun input => ?_⟩
  obtain ⟨_, later⟩ := (idled.act (.tick input)).game_eq
  have now : (padded.game.tick input).events = (plain.game.tick input).events :=
    idled.told (.tick input)
  have later : padded.game.tick input = { plain.game.tick input with
      ticks := (plain.game.tick input).ticks + n
      events := (padded.game.tick input).events } := later
  rwa [now] at later

end

/-- Two ticks are put in before the step into the dead end, and one after the setback. -/
theorem idle_ticks_are_silent_in_pond :
    ∃ g₀ r, Game.new [pond] { Rules.standard with puffleMoveTicks := 2 } 0 = .ok g₀ ∧
      Run.Reachable g₀ r ∧
      let plain := [.tick (.hold .right), .tick .idle, .tick (.hold .right)].foldl Run.act r
      let padded := [.tick .idle, .tick .idle, .tick (.hold .right), .tick .idle, .tick .idle,
        .tick (.hold .right)].foldl Run.act r
      r.game.tick .idle = { r.game with ticks := r.game.ticks + 1, events := [] } ∧
      .stuck ⟨1, 0⟩ ∈ plain.events ∧ padded.events = plain.events ∧
      plain.game.ticks = 3 ∧ padded.game.ticks = 6 ∧ padded.game.timesFailed = 1 ∧
      padded.game.puffle = plain.game.puffle := by
  obtain ⟨g₀, new⟩ : ∃ g₀,
      Game.new [pond] { Rules.standard with puffleMoveTicks := 2 } 0 = .ok g₀ := ⟨_, rfl⟩
  let r := (Run.start g₀).act (.start 1)
  have reached : Run.Reachable g₀ r := .next _ .start
  have starts : r.game.phase = .playing ∧ r.game.isSettled = true := by
    cases new
    decide +kernel
  have inserted : r.game.Padded [.tick (.hold .right), .tick .idle, .tick (.hold .right)]
      [.tick .idle, .tick .idle, .tick (.hold .right), .tick .idle, .tick .idle,
        .tick (.hold .right)] := by
    refine .idle starts.1 starts.2 (.idle ?_ ?_ (.act (.act (.idle ?_ ?_ (.act .done))))) <;>
      cases new <;> decide +kernel
  obtain ⟨quiet, silent⟩ := idle_ticks_are_silent new reached
  obtain ⟨n, length, told, _, same, _⟩ := silent _ _ inserted
  have played : .stuck ⟨1, 0⟩ ∈ ([.tick (.hold .right), .tick .idle,
        .tick (.hold .right)].foldl Run.act r).events ∧
      ([.tick (.hold .right), .tick .idle, .tick (.hold .right)].foldl Run.act r).game.ticks = 3 ∧
      ([.tick (.hold .right), .tick .idle,
        .tick (.hold .right)].foldl Run.act r).game.timesFailed = 1 := by
    cases new
    decide +kernel
  obtain ⟨stuck, ticks, failed⟩ := played
  obtain rfl : n = 3 := by
    have count : 6 = 3 + n := length
    omega
  refine ⟨g₀, r, new, reached, quiet starts.1 starts.2, stuck, told, ticks, ?_, ?_, ?_⟩
  · rw [same, ticks]
  · rw [same, failed]
  · rw [same]

end IceMaze
