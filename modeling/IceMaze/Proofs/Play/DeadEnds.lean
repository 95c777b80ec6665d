import IceMaze.Proofs.Play.BlockNumbers
import IceMaze.Proofs.Play.Melting
import IceMaze.Proofs.Play.Redrawing

/-!
Dead ends, and which of them are noticed.

A puffle that has walked into a dead end is `Attended`: it still moves, the check is still to come,
or there is a way on. A `Trail` keeps how the puffle has last landed, so that `dead_ends_noticed`
can say that only a teleport leads to a dead end that is not noticed.
-/

namespace IceMaze

namespace Game

variable {g g' : Game} {input : Input}

theorem isSettled_iff :
    g.isSettled = true ↔
      g.puffle.motion = none ∧ ∀ b ∈ g.blocks, b.motion = none ∧ b.momentum = none := by
  simp [isSettled, Puffle.isMoving, Block.isMoving]

/-! ## The puffle stays on the board -/

def TargetStays (g : Game) : Prop := ∀ m, g.puffle.motion = some m → m.target.OnBoard

theorem TargetStays.of_rests (rests : g.puffle.motion = none) : g.TargetStays := by
  intro m moves
  cases rests.symm.trans moves

theorem onBoard_of_canMove {d : Direction} (free : g.canMove d = true) :
    (g.puffle.pos.step d).OnBoard := by
  obtain ⟨k, kind, _⟩ := openAhead_of_canMove free
  exact Board.onBoard_of_kind? kind

/-- Where a move of the puffle comes from. -/
theorem Step.puffleMotion_cases (step : Step g g') {m : Motion}
    (moves : g'.puffle.motion = some m) :
    g.puffle.motion = some m ∨
    (∃ n, g.puffle.motion = some n ∧ n.step.isDone = false ∧ m = n.step) ∨
    ∃ d, g.canMove d = true ∧
      m = .start g.puffle.pos (g.puffle.pos.step d) d g.rules.puffleMoveTicks := by
  have unopened {h : Game} {l : Level} (opened : h.Opened l) : h.puffle.motion ≠ some m := by
    rw [opened.puffle]
    nofun
  have reset {h : Game} (moves : h.resetLevel.puffle.motion = some m)
      (same : h.puffle = g.puffle) : g.puffle.motion = some m := by
    obtain still | ⟨l, opened⟩ := h.resetLevel_cases
    · rwa [still, same] at moves
    · exact absurd moves (unopened opened)
  cases step with
  | countTick | dropMomentum | glide | forgetStuckCheck | conclude => exact .inl moves
  | startMove d _ _ free =>
    rw [puffle_startMove] at moves
    exact .inr (.inr ⟨d, free, (Option.some.inj moves).symm⟩)
  | slide | land =>
    left
    simpa using moves
  | walk _ walks going => exact .inr (.inl ⟨_, walks, going, (Option.some.inj moves).symm⟩)
  | leaveBoard => cases moves
  | reachGoal | enterLock | enterTeleporter | enterPlain => simp at moves
  | fail => exact .inl (reset moves rfl)
  | reset => exact .inl (reset moves rfl)
  | load | next => exact absurd moves (unopened (opened_load _ _))

theorem Step.targetStays (step : Step g g') (h : g.TargetStays) : g'.TargetStays := by
  intro m moves
  obtain before | ⟨n, before, _, rfl⟩ | ⟨d, free, rfl⟩ := step.puffleMotion_cases moves
  · exact h m before
  · rw [target_step]
    exact h n before
  · exact onBoard_of_canMove free

/-! ## The check -/

theorem BlockNumbers.canMove?_of_isStuck (h : g.BlockNumbers) (unfinished : g.phase ≠ .finished)
    (stuck : g.isStuck = true) (d : Direction) : g.canMove? d = some false := by
  have barred : g.canMove d = false := by
    have all := List.all_eq_true.1 stuck d (Direction.mem_all d)
    simpa using all
  rw [h.canMove?_eq unfinished, barred]

/-! ## A puffle that has walked -/

/-- The puffle moves, or the check is to come, or there is a way on. -/
def Attended (g : Game) : Prop :=
  g.puffle.motion ≠ none ∨ g.stuckCheck = true ∨ g.isSettled = true ∧ g.isStuck = false

theorem attended_startMove (d : Direction) : (g.startMove d).Attended := .inl nofun

theorem Attended.steer (h : g.Attended) (input : Input) : (g.steer input).Attended := by
  obtain idle | ⟨d, _, started⟩ := g.steer_cases input
  · rw [idle]
    exact h
  · obtain ⟨_, moved⟩ := attemptMove_eq_some.1 started
    rw [← moved]
    exact attended_startMove d

/-- A block at rest, and not about to slide on, lets its turn pass. -/
theorem advanceBlock_of_calm {i : Nat}
    (calm : ∀ b, g.blocks[i]? = some b → b.motion = none ∧ b.momentum = none) :
    g.advanceBlock i = g := by
  cases here : g.blocks[i]? with
  | none => simp [advanceBlock, restartBlock, stepBlock, here]
  | some b =>
    obtain ⟨rests, quiet⟩ := calm b here
    simp [advanceBlock, restartBlock, stepBlock, here, rests, quiet]

theorem advanceBlock_of_settled (h : g.isSettled = true) (i : Nat) : g.advanceBlock i = g :=
  advanceBlock_of_calm fun b here => (isSettled_iff.1 h).2 b (List.mem_of_getElem? here)

theorem advanceBlocks_of_settled (h : g.isSettled = true) : g.advanceBlocks = g := by
  unfold advanceBlocks
  generalize List.range g.blocks.length = is
  induction is with
  | nil => rfl
  | cons i is ih => rw [List.foldl_cons, advanceBlock_of_settled h, ih]

@[simp] theorem stuckCheck_pushBlock (i : Nat) (d : Direction) :
    (g.pushBlock i d).stuckCheck = g.stuckCheck := by
  unfold pushBlock
  split <;> rfl

@[simp] theorem stuckCheck_landBlock (i : Nat) (b : Block) (m : Motion) :
    (g.landBlock i b m).stuckCheck = g.stuckCheck := by
  simp only [landBlock]
  split <;> rfl

/-- Blocks leave the puffle and the check to come alone. -/
theorem puffle_advanceBlock (g : Game) (i : Nat) :
    (g.advanceBlock i).puffle = g.puffle ∧ (g.advanceBlock i).stuckCheck = g.stuckCheck := by
  have restarted : (g.restartBlock i).puffle = g.puffle ∧
      (g.restartBlock i).stuckCheck = g.stuckCheck := by
    unfold restartBlock
    split
    · exact ⟨rfl, rfl⟩
    · split
      · exact ⟨rfl, rfl⟩
      · split
        · exact ⟨rfl, rfl⟩
        · dsimp only
          split <;> simp [setBlock]
  unfold advanceBlock stepBlock
  split
  · exact restarted
  · split
    · exact restarted
    · dsimp only
      split
      · simpa using restarted
      · exact restarted

theorem puffle_advanceBlocks (g : Game) :
    g.advanceBlocks.puffle = g.puffle ∧ g.advanceBlocks.stuckCheck = g.stuckCheck := by
  unfold advanceBlocks
  generalize List.range g.blocks.length = is
  induction is generalizing g with
  | nil => exact ⟨rfl, rfl⟩
  | cons i is ih =>
    obtain ⟨puffle, check⟩ := ih (g.advanceBlock i)
    obtain ⟨puffle', check'⟩ := g.puffle_advanceBlock i
    exact ⟨puffle.trans puffle', check.trans check'⟩

theorem Attended.advanceBlocks (h : g.Attended) : g.advanceBlocks.Attended := by
  obtain ⟨puffle, check⟩ := g.puffle_advanceBlocks
  obtain moves | pending | ⟨settled, free⟩ := h
  · left
    rwa [puffle]
  · right; left
    rwa [check]
  · rw [advanceBlocks_of_settled settled]
    exact .inr (.inr ⟨settled, free⟩)

theorem Attended.approach (h : g.Attended) (input : Input) : (g.approach input).Attended := by
  have counted : { g with events := [], ticks := g.ticks + 1 }.Attended := h
  exact (counted.steer input).advanceBlocks

/-- However the puffle lands, the check will come, except after a teleport or on a goal. -/
theorem Advance.attended (advance : Advance g g') (stays : g.TargetStays)
    (awake : g.puffle.motion = none → g.Attended) (playing : g'.phase = .playing)
    (undrawn : ∀ e ∈ g'.events, e.opensLevel = false) :
    g'.Attended ∨
      (∃ m, g.puffle.motion = some m ∧ m.step.isDone = true) ∧
        ∃ c d, .teleported c d ∈ g'.events := by
  cases advance with
  | rest rests => exact .inl (awake rests)
  | walk => exact .inl (.inl nofun)
  | leaveBoard moves _ off => exact absurd (stays _ moves) (Board.get?_eq_none.1 off)
  | @reachGoal m =>
    obtain ⟨l, _, next⟩ | ⟨_, ended⟩ := ((g.arrive m.target).takeBag m.target).goToNextLevel_cases
    · rw [next, events_load] at undrawn
      have drawn := undrawn _ (List.mem_append_right _ (List.mem_singleton_self _))
      cases drawn
    · rw [ended] at playing
      cases playing
  | enterLock | enterPlain => exact .inl (.inr (.inl rfl))
  | @enterTeleporter m t c moves done =>
    refine .inr ⟨⟨m, moves, done⟩, m.target, c, ?_⟩
    simp [events_takeKey, events_teleport]

/-- A reset is told. -/
theorem resetLevel_draws {levels : List Level} (loaded : g.setting.Loaded levels)
    (playing : g.phase = .playing) : ∃ e ∈ g.resetLevel.events, e.opensLevel = true := by
  obtain ⟨l, layout⟩ := loaded.exists_layout playing
  rw [events_resetLevel_of_playing g playing layout]
  exact ⟨_, List.mem_append_right _ (List.mem_singleton_self _), rfl⟩

theorem attended_checkStuck {levels : List Level} (h : g.Attended)
    (loaded : g.setting.Loaded levels)
    (undrawn : ∀ e ∈ g.checkStuck.events, e.opensLevel = false) :
    g.checkStuck.Attended ∧ (g.checkStuck.phase = .playing → g.checkStuck.isSettled = true →
      g.checkStuck.isStuck = false) := by
  obtain ⟨undue, same⟩ | ⟨_, playing, settled, ⟨free, same⟩ | ⟨_, same⟩⟩ := g.checkStuck_cases
  · rw [same]
    refine ⟨h, ?_⟩
    intro playing settled
    obtain moves | pending | ⟨_, free⟩ := h
    · exact absurd (isSettled_iff.1 settled).1 moves
    · exact absurd ⟨pending, playing, settled⟩ undue
    · exact free
  · rw [same]
    exact ⟨.inr (.inr ⟨settled, free⟩), fun _ _ => free⟩
  · rw [same] at undrawn
    obtain ⟨e, told, draws⟩ := resetLevel_draws (g := g.reportStuck) loaded playing
    cases (undrawn e told).symm.trans draws

/-- After a tick, a puffle that has walked is attended, and not left in a dead end. -/
theorem attended_tick {levels : List Level} (loaded : g.setting.Loaded levels)
    (stays : g.TargetStays) (playing : (g.tick input).phase = .playing)
    (undrawn : ∀ e ∈ (g.tick input).events, e.opensLevel = false)
    (awake : g.phase = .playing → g.landsOn? input = none → g.Attended)
    (afoot : (g.landsOn? input).isSome → ∀ c d, .teleported c d ∉ (g.tick input).events) :
    (g.tick input).Attended ∧
      ((g.tick input).isSettled = true → (g.tick input).isStuck = false) := by
  by_cases plays : g.phase = .playing
  · cases restart : input.reset with
    | true =>
      rw [tick_restart plays restart] at undrawn
      obtain ⟨e, told, draws⟩ :=
        resetLevel_draws (g := { g with events := [], ticks := g.ticks + 1 }) loaded plays
      cases (undrawn e told).symm.trans draws
    | false =>
      have steps := steps_approach input plays
      have checked := tick_eq plays restart
      have loaded' : (g.beforeCheck input).setting.Loaded levels :=
        Steps.keeps (Q := fun f => f.setting.Loaded levels) (fun _ _ step => step.loaded)
          (steps_beforeCheck input plays) loaded
      have stays' : (g.approach input).TargetStays :=
        Steps.keeps (fun _ _ step => step.targetStays) steps stays
      -- what has been told before the check is still told after it
      have told := (Run.events_prefix_steps (steps_checkStuck (g.beforeCheck input))).subset
      rw [checked] at playing undrawn afoot ⊢
      have playing' : (g.beforeCheck input).phase = .playing :=
        (phase_checkStuck _).symm.trans playing
      have awake' : (g.approach input).puffle.motion = none → (g.approach input).Attended := by
        intro rests
        have rested : g.landsOn? input = none := by simp [landsOn?, rests]
        exact (awake plays rested).approach input
      obtain attended | ⟨⟨m, moves, done⟩, c, d, teleported⟩ :=
        (g.approach input).advance_advancePuffle.attended stays' awake' playing'
          (fun e he => undrawn e (told he))
      · obtain ⟨attended', noticed⟩ :=
          attended_checkStuck attended loaded' undrawn
        exact ⟨attended', noticed playing⟩
      · have lands := landsOn?_eq_some.2 ⟨⟨plays, restart⟩, m, moves, done, rfl⟩
        exact absurd (told teleported) (afoot (by rw [lands]; rfl) c d)
  · rw [tick_idle plays] at playing
    exact absurd playing plays

end Game

/-! ## Trails -/

/-- How the puffle has come to a cell. -/
inductive Arrival where
  | walked
  | teleported
  deriving DecidableEq

/-- A call that draws no level leaves the game alone, starts a move or ends the game. -/
theorem Run.act_of_undrawn {levels : List Level} {r : Run} {a : Action}
    (loaded : r.game.setting.Loaded levels) (call : ∀ input, a ≠ .tick input)
    (undrawn : ∀ e ∈ r.told a, e.opensLevel = false) :
    r.game.act a = r.game ∨ (∃ d, r.game.act a = r.game.startMove d) ∨
      (r.game.act a).phase = .finished := by
  have quiet (es : List Event) (e : Event) (draws : e.opensLevel = true) :
      (r.game.act a).events ≠ r.game.events ++ (es ++ [e]) := by
    intro events
    have told : r.told a = es ++ [e] := by rw [told_eq call, events, List.drop_left]
    have plain := undrawn e (by simp [told])
    cases plain.symm.trans draws
  cases a with
  | tick input => exact absurd rfl (call input)
  | start n =>
    cases found : r.game.level? n with
    | none => exact .inl (by simp [Game.act, Game.startLevel, found])
    | some l =>
      have loads : r.game.act (.start n) = r.game.load n l := by
        simp [Game.act, Game.startLevel, found]
      rw [loads] at quiet
      exact absurd (r.game.events_load n l) (quiet [] _ rfl)
  | reset =>
    by_cases playing : r.game.phase = .playing
    · obtain ⟨l, layout⟩ := loaded.exists_layout playing
      exact absurd (r.game.events_resetLevel_of_playing playing layout) (quiet [] _ rfl)
    · exact .inl (Game.resetLevel_idle playing)
  | next =>
    rw [Game.act] at quiet ⊢
    obtain ⟨l, _, next⟩ | ⟨_, ended⟩ := r.game.goToNextLevel_cases
    · have events := r.game.complete.events_load (r.game.levelNumber + 1) l
      rw [← next, Game.events_complete, List.append_assoc] at events
      exact absurd events (quiet [_] _ rfl)
    · right; right
      rw [ended]
      rfl
  | attempt d =>
    rw [Game.act]
    cases started : r.game.attemptMove d with
    | none => exact .inl rfl
    | some g' =>
      obtain ⟨_, rfl⟩ := Game.attemptMove_eq_some.1 started
      exact .inr (.inl ⟨d, rfl⟩)

/-- How the puffle lands in an action, if it does. -/
def Run.arrival? (r : Run) (a : Action) : Option Arrival :=
  match a with
  | .tick input =>
    (r.game.landsOn? input).map fun _ =>
      if (r.told a).any Event.isTeleport then .teleported else .walked
  | _ => none

/-- A run, with the last landing of the puffle since the level was drawn. -/
structure Trail where
  run : Run
  arrival : Option Arrival

namespace Trail

def act (t : Trail) (a : Action) : Trail where
  run := t.run.act a
  arrival :=
    -- a landing comes before the drawing that it leads to in the same tick
    if (t.run.told a).any Event.opensLevel then none
    else (t.run.arrival? a).or t.arrival

/-- The trail of some actions in a new game. -/
def of (g₀ : Game) (as : List Action) : Trail := as.foldl act ⟨.start g₀, none⟩

theorem run_foldl (as : List Action) (t : Trail) :
    (as.foldl act t).run = as.foldl Run.act t.run := by
  induction as generalizing t with
  | nil => rfl
  | cons a as ih => rw [List.foldl_cons, ih, List.foldl_cons, act]

/-- A puffle that has walked to where it is in the level is attended. -/
def Heeded (t : Trail) : Prop :=
  t.arrival = some .walked → t.run.game.phase = .playing → t.run.game.Attended

theorem arrival_act_eq_walked {t : Trail} {a : Action}
    (h : (t.act a).arrival = some .walked) :
    (∀ e ∈ t.run.told a, e.opensLevel = false) ∧
      (t.run.arrival? a = some .walked ∨ t.run.arrival? a = none ∧ t.arrival = some .walked) := by
  unfold act at h
  dsimp only at h
  split at h
  · cases h
  · rename_i undrawn
    exact ⟨by simpa using undrawn, Option.or_eq_some_iff.1 h⟩

variable {levels : List Level} {t : Trail}

theorem Heeded.tick (h : t.Heeded) (loaded : t.run.game.setting.Loaded levels)
    (stays : t.run.game.TargetStays) {input : Input}
    (walked : (t.act (.tick input)).arrival = some .walked)
    (playing : (t.run.game.tick input).phase = .playing) :
    (t.run.game.tick input).Attended ∧
      ((t.run.game.tick input).isSettled = true → (t.run.game.tick input).isStuck = false) := by
  obtain ⟨undrawn, last⟩ := arrival_act_eq_walked walked
  apply Game.attended_tick loaded stays playing undrawn
  · intro plays rested
    have unchanged : t.run.arrival? (.tick input) = none := by simp [Run.arrival?, rested]
    simp only [unchanged, reduceCtorEq, true_and, false_or] at last
    exact h last plays
  · intro lands c d teleported
    obtain ⟨e, lands⟩ := Option.isSome_iff_exists.1 lands
    have arrived : t.run.arrival? (.tick input) = some .teleported := by
      have told : (t.run.told (.tick input)).any Event.isTeleport = true :=
        List.any_eq_true.2 ⟨_, teleported, rfl⟩
      simp [Run.arrival?, lands, told]
    simp [arrived] at last

theorem Heeded.act (h : t.Heeded) (loaded : t.run.game.setting.Loaded levels)
    (stays : t.run.game.TargetStays) (a : Action) : (t.act a).Heeded := by
  intro walked playing
  obtain ⟨undrawn, last⟩ := arrival_act_eq_walked walked
  by_cases tick : ∃ input, a = .tick input
  · obtain ⟨input, rfl⟩ := tick
    exact (h.tick loaded stays walked playing).1
  · have call : ∀ input, a ≠ .tick input := fun input same => tick ⟨input, same⟩
    have before : t.arrival = some .walked := by
      have still : t.run.arrival? a = none := by
        unfold Run.arrival?
        split
        · exact absurd rfl (call _)
        · rfl
      simpa [still] using last
    rw [Trail.act, Run.game_act] at playing ⊢
    obtain same | ⟨d, moved⟩ | finished := Run.act_of_undrawn loaded call undrawn
    · rw [same] at playing ⊢
      exact h before playing
    · rw [moved]
      exact Game.attended_startMove d
    · cases playing.symm.trans finished

end Trail

/-! ## Runs -/

section
variable {levels : List Level} {rules : Rules} {seed : UInt64} {g₀ : Game}

theorem Game.targetStays_of_new (new : Game.new levels rules seed = .ok g₀) : g₀.TargetStays := by
  apply Game.TargetStays.of_rests
  rw [Game.puffle_of_new new]
  rfl

theorem Run.Reachable.targetStays {r : Run} (new : Game.new levels rules seed = .ok g₀)
    (h : Run.Reachable g₀ r) : r.game.TargetStays := by
  have unstarted := Game.unstarted_of_new new
  exact h.game_invariant unstarted.silent (Game.targetStays_of_new new) (fun _ => id)
    fun _ _ step => step.targetStays

theorem Trail.heeded_of (new : Game.new levels rules seed = .ok g₀) (as : List Action) :
    (Trail.of g₀ as).Heeded := by
  suffices h : Run.Reachable g₀ (Trail.of g₀ as).run ∧ (Trail.of g₀ as).Heeded from h.2
  unfold Trail.of
  refine List.foldlRecOn (motive := fun t => Run.Reachable g₀ t.run ∧ t.Heeded) as act ?_ ?_
  · exact ⟨.start, nofun⟩
  · rintro t ⟨reachable, heeded⟩ a _
    exact ⟨.next a reachable, heeded.act (reachable.loaded new) (reachable.targetStays new) a⟩

/-- Before the reset everything rests and no move is left, and the reset is the only one. -/
theorem Run.Reachable.tick_of_stuck {r : Run} (new : Game.new levels rules seed = .ok g₀)
    (h : Run.Reachable g₀ r) {input : Input} {c : Coord}
    (told : .stuck c ∈ (r.game.tick input).events) :
    let s := (r.game.beforeCheck input).reportStuck
    s.puffle.pos = c ∧ s.puffle.motion = none ∧
    (∀ b ∈ s.blocks, b.motion = none ∧ b.momentum = none) ∧
    (∀ d, s.canMove? d = some false) ∧
    (∃ es, s.events = es ++ [.stuck c] ∧ ∀ e ∈ es, e.isSetback = false) ∧
    r.game.tick input = s.resetLevel ∧
    (r.game.tick input).events =
      s.events ++ [.levelReset s.levelNumber (s.timesFailed + 1)] := by
  obtain ⟨playing, _, setting, settled, stuck, pos, reset⟩ := Game.tick_of_stuck told
  have numbers : (r.game.beforeCheck input).BlockNumbers := by
    apply Game.Steps.keeps (fun _ _ step => step.blockNumbers) (Game.steps_beforeCheck input playing)
    exact ⟨(h.blockNumbers new).1, (h.blockNumbers new).2⟩
  have playing' : (r.game.beforeCheck input).phase = .playing :=
    (Game.phase_of_setting setting).trans playing
  obtain ⟨l, layout⟩ := (h.loaded new).exists_layout playing
  obtain ⟨rests, calm⟩ := Game.isSettled_iff.1 settled
  simp only [Game.puffle_reportStuck, Game.blocks_reportStuck, Game.canMove?_reportStuck]
  refine ⟨pos, rests, calm, ?_, ?_, reset, ?_⟩
  · exact numbers.canMove?_of_isStuck (by simp [playing']) stuck
  · refine ⟨_, by rw [Game.events_reportStuck, pos], ?_⟩
    intro e before
    exact Game.isSetback_of_mem_beforeCheck before
  · have reported := (Game.setting_reportStuck _).trans setting
    rw [reset]
    exact Game.events_resetLevel_of_playing _ ((Game.phase_of_setting reported).trans playing)
      ((Game.layout_of_setting reported).trans layout)

/-- Only a puffle that cannot move is set back, and one that has walked into a dead end always is,
once everything is at rest. -/
theorem dead_ends_noticed (new : Game.new levels rules seed = .ok g₀) (as : List Action) :
    let t := Trail.of g₀ as
    t.run = as.foldl Run.act (.start g₀) ∧
    (∀ input c, .stuck c ∈ (t.run.game.tick input).events →
      let s := (t.run.game.beforeCheck input).reportStuck
      s.puffle.pos = c ∧ s.puffle.motion = none ∧
      (∀ b ∈ s.blocks, b.motion = none ∧ b.momentum = none) ∧
      (∀ d, s.canMove? d = some false) ∧
      (∃ es, s.events = es ++ [.stuck c] ∧ ∀ e ∈ es, e.isSetback = false) ∧
      t.run.game.tick input = s.resetLevel ∧
      (t.run.game.tick input).events =
        s.events ++ [.levelReset s.levelNumber (s.timesFailed + 1)]) ∧
    (∀ input, (t.act (.tick input)).run.game.phase = .playing →
      (t.act (.tick input)).run.game.isSettled = true →
      (t.act (.tick input)).run.game.isStuck = true →
      (t.act (.tick input)).arrival ≠ some .walked) := by
  intro t
  have run : t.run = as.foldl Run.act (.start g₀) := Trail.run_foldl as _
  have reachable : Run.Reachable g₀ t.run := run ▸ .actions as
  refine ⟨run, fun input c told => reachable.tick_of_stuck new told, ?_⟩
  intro input playing settled stuck walked
  obtain ⟨_, free⟩ := (Trail.heeded_of new as).tick (reachable.loaded new)
    (reachable.targetStays new) walked playing
  cases (free settled).symm.trans stuck

end

/-- A tile of ice between walls. -/
def pit : Level where
  origin := .zero
  spawn := .zero
  tiles := .set (.filled 2 2 .wall) 0 0 .ice
  keys := []
  blocks := []
  bag := none
  patches := []

/-- A teleporter beside the start, with its other end walled in. -/
def shaft : Level where
  origin := .zero
  spawn := .zero
  tiles := .set (.set (.set (.filled 3 4 .wall) 0 0 .ice) 1 0 .teleporter) 1 2 .teleporter
  keys := []
  blocks := []
  bag := none
  patches := []

/-- Whoever walks to the end of the pond is set back; whoever starts in the pit or comes out at the
end of the shaft stays there. -/
theorem dead_end_in_pond :
    ∃ g₀, Game.new [pond, pit, shaft] .standard 0 = .ok g₀ ∧
      (let t := Trail.of g₀ (.start 1 :: List.replicate 3 (.tick (.hold .right)))
      let s := (t.run.game.beforeCheck (.hold .right)).reportStuck
      .stuck ⟨1, 0⟩ ∈ (t.run.game.tick (.hold .right)).events ∧
      (∀ d, s.canMove? d = some false) ∧ t.run.game.tick (.hold .right) = s.resetLevel) ∧
      (let t := (Trail.of g₀ [.start 2]).act (.tick .idle)
      t.run.game.isSettled = true ∧ t.run.game.isStuck = true ∧ t.arrival ≠ some .walked) ∧
      (let t := (Trail.of g₀ (.start 3 :: List.replicate 3 (.tick (.hold .right)))).act
        (.tick (.hold .right))
      t.run.game.puffle.pos = ⟨1, 2⟩ ∧ t.arrival = some .teleported ∧
      t.run.game.isSettled = true ∧ t.run.game.isStuck = true ∧ t.arrival ≠ some .walked) := by
  obtain ⟨g₀, new⟩ : ∃ g₀, Game.new [pond, pit, shaft] .standard 0 = .ok g₀ := ⟨_, rfl⟩
  refine ⟨g₀, new, ?_, ?_, ?_⟩
  · have told : .stuck ⟨1, 0⟩ ∈ ((Trail.of g₀
        (.start 1 :: List.replicate 3 (.tick (.hold .right)))).run.game.tick
          (.hold .right)).events := by
      cases new
      decide +kernel
    obtain ⟨_, _, _, barred, _, reset, _⟩ := (dead_ends_noticed new _).2.1 _ _ told
    exact ⟨told, barred, reset⟩
  · have rests : ((Trail.of g₀ [.start 2]).act (.tick .idle)).run.game.phase = .playing ∧
        ((Trail.of g₀ [.start 2]).act (.tick .idle)).run.game.isSettled = true ∧
        ((Trail.of g₀ [.start 2]).act (.tick .idle)).run.game.isStuck = true := by
      cases new
      decide +kernel
    obtain ⟨playing, settled, stuck⟩ := rests
    exact ⟨settled, stuck, (dead_ends_noticed new _).2.2 _ playing settled stuck⟩
  · let t := (Trail.of g₀ (.start 3 :: List.replicate 3 (.tick (.hold .right)))).act
      (.tick (.hold .right))
    have rests : t.run.game.puffle.pos = ⟨1, 2⟩ ∧ t.arrival = some .teleported ∧
        t.run.game.phase = .playing ∧ t.run.game.isSettled = true ∧
        t.run.game.isStuck = true := by
      cases new
      decide +kernel
    obtain ⟨out, arrived, playing, settled, stuck⟩ := rests
    exact ⟨out, arrived, settled, stuck, (dead_ends_noticed new _).2.2 _ playing settled stuck⟩

end IceMaze
