import IceMaze.Proofs.Play.Ledger

/-!
What can still happen to a game that is over.

A game is over when its last level is completed, and it then has told its final score (`Over`).
Ticks, resets and moves do nothing any more, but asking for the next level completes the last one
once more: its bonus is added and a new final score is told (`score_after_finish`).
-/

namespace IceMaze

/-- The score that is told at the end of the game. -/
def Event.finalScore? : Event → Option Nat
  | .allLevelsComplete score => some score
  | _ => none

def Action.isNext : Action → Bool
  | .next => true
  | _ => false

namespace Game

variable {g g' : Game}

/-- The last level has been completed, and the score has been told. -/
structure Over (log : List Event) (g : Game) : Prop where
  last : g.level? (g.levelNumber + 1) = none
  blocks : g.blocks = []
  points : g.pointsInLevel = 0
  solved : g.solvedPrevious = decide (g.melted = g.total)
  told : (log.filterMap Event.finalScore?).getLast? = some g.score

/-- Only the end of the last level leads to a game that is not in play. -/
theorem Step.playing_or_conclude (step : Step g g') :
    g'.phase = .playing ∨ g.level? (g.levelNumber + 1) = none ∧ g' = g.complete.finish := by
  cases step with
  | countTick playing | dropMomentum playing | glide playing | walk playing
  | leaveBoard playing | forgetStuckCheck playing => exact .inl playing
  | startMove d playing => exact .inl ((phase_of_setting (setting_startMove g d)).trans playing)
  | slide d playing => exact .inl ((phase_of_setting (setting_pushBlock g _ d)).trans playing)
  | land playing => exact .inl ((phase_of_setting (setting_landBlock g _ _ _)).trans playing)
  | reachGoal playing | enterLock playing | enterTeleporter playing | enterPlain playing =>
    exact .inl ((phase_of_setting (by simp)).trans playing)
  | fail playing => exact .inl ((phase_resetLevel _).trans playing)
  | reset playing => exact .inl (g.phase_resetLevel.trans playing)
  | load => exact .inl (phase_load _ _ _)
  | next => exact .inl (phase_load _ _ _)
  | conclude last => exact .inr ⟨last, rfl⟩

theorem over_finish {log : List Event} (last : g.level? (g.levelNumber + 1) = none) :
    Over (log ++ g.complete.finish.events) g.complete.finish := by
  refine ⟨last, rfl, rfl, rfl, ?_⟩
  rw [events_finish, ← List.append_assoc, List.filterMap_append]
  exact List.getLast?_concat

/-- To complete the last level again adds its bonus once more. -/
theorem Over.complete_finish {log : List Event} (h : g.Over log) (finished : g.phase = .finished) :
    g.complete.finish =
      { g with
        pointsAtStart := g.pointsAtStart + g.bonus
        events := g.complete.finish.events
        notes := g.complete.finish.notes } := by
  have points : g.pointsAtStart + (g.pointsInLevel + g.bonus) = g.pointsAtStart + g.bonus := by
    rw [h.points, Nat.zero_add]
  have blocks := h.blocks
  have solved := h.solved
  have empty := h.points
  cases g
  simp_all [Game.complete, finish, emit, note]

theorem goToNextLevel_of_last (last : g.level? (g.levelNumber + 1) = none) :
    g.goToNextLevel = g.complete.finish := by
  obtain ⟨l, found, _⟩ | ⟨_, ended⟩ := g.goToNextLevel_cases
  · cases last.symm.trans found
  · exact ended

/-- What is told when the last level is completed for the `i`th time after the end of the game. -/
def encore (g : Game) (i : Nat) : List Event :=
  [.levelCompleted g.levelNumber (g.melted = g.total) g.bonus,
    .allLevelsComplete (g.score + (i + 1) * g.bonus)]

end Game

namespace Run

/-- All that has changed since the game was over is the score, by so many bonuses. -/
structure Rescores (r : Run) (n : Nat) (r' : Run) : Prop where
  game : r'.game =
    { r.game with
      pointsAtStart := r.game.pointsAtStart + n * r.game.bonus
      events := r'.game.events
      notes := r'.game.notes }
  events : r'.events = r.events ++ (List.range n).flatMap r.game.encore

variable {r r' : Run} {n : Nat}

theorem Rescores.refl (r : Run) : r.Rescores 0 r := ⟨by simp, by simp⟩

theorem Rescores.phase (h : r.Rescores n r') : r'.game.phase = r.game.phase := by
  rw [h.game]

theorem Rescores.bonus (h : r.Rescores n r') : r'.game.bonus = r.game.bonus := by
  rw [h.game]
  rfl

theorem Rescores.score (h : r.Rescores n r') :
    r'.game.score = r.game.score + n * r.game.bonus := by
  have score := congrArg Game.score h.game
  simp only [Game.score] at score ⊢
  omega

/-- An action that neither completes a level nor starts one does nothing to a game that is over. -/
theorem Rescores.idle (h : r.Rescores n r') {a : Action} {events : List Event}
    (same : r'.game.act a = { r'.game with events := events }) (told : r'.told a = []) :
    r.Rescores n (r'.act a) := by
  constructor
  · rw [game_act, same]
    have game := h.game
    generalize r'.game = g at game
    rw [game]
  · rw [events_act, told, List.append_nil, h.events]

theorem Rescores.next {log : List Event} (h : r.Rescores n r') (ended : r'.game.Over log)
    (finished : r'.game.phase = .finished) : r.Rescores (n + 1) (r'.act .next) := by
  have concluded : r'.game.act .next = r'.game.complete.finish :=
    Game.goToNextLevel_of_last ended.last
  constructor
  · rw [game_act, concluded]
    have total : r.game.pointsAtStart + (n + 1) * r.game.bonus =
        r.game.pointsAtStart + n * r.game.bonus + r.game.bonus := by
      rw [Nat.succ_mul, Nat.add_assoc]
    rw [ended.complete_finish finished, h.bonus, total]
    have game := h.game
    generalize r'.game.complete.finish = f
    generalize r'.game = g at game
    rw [game]
  · have melted : r'.game.melted = r.game.melted := by rw [h.game]
    have cleared : r'.game.total = r.game.total := by rw [h.game]
    have number : r'.game.levelNumber = r.game.levelNumber := by rw [h.game]
    have final : r'.game.complete.score = r.game.score + (n + 1) * r.game.bonus := by
      have before := h.score
      have bonus := h.bonus
      simp only [Game.score, Game.complete, Game.emit, Game.note] at before ⊢
      rw [Nat.succ_mul]
      omega
    have told : r'.told .next = r.game.encore n := by
      rw [told_eq (by simp), concluded, Game.events_finish, Game.events_complete, List.append_assoc,
        List.drop_left, ended.points, h.bonus, number, melted, cleared, final, Nat.zero_add]
      rfl
    rw [events_act, told, h.events, List.range_succ, List.flatMap_append, List.append_assoc,
      List.flatMap_singleton]

theorem Rescores.act {log : List Event} (h : r.Rescores n r') (ended : r'.game.Over log)
    (finished : r'.game.phase = .finished) {a : Action} (unstarted : ∀ m, a ≠ .start m) :
    r.Rescores (n + if a.isNext then 1 else 0) (r'.act a) := by
  have not_playing : r'.game.phase ≠ .playing := by
    rw [finished]
    nofun
  cases a with
  | start m => exact absurd rfl (unstarted m)
  | tick input =>
    have still : r'.game.act (.tick input) = { r'.game with events := [] } :=
      Game.tick_idle not_playing
    exact h.idle still (congrArg Game.events still)
  | reset =>
    have still : r'.game.act .reset = r'.game := Game.resetLevel_idle not_playing
    exact h.idle still (by rw [told_eq (by simp), still, List.drop_length])
  | next => exact h.next ended finished
  | attempt d =>
    have refused : r'.game.attemptMove d = none := by
      cases moved : r'.game.attemptMove d with
      | none => rfl
      | some g => exact absurd (Game.attemptMove_eq_some.1 moved).1.1 not_playing
    have still : r'.game.act (.attempt d) = r'.game := by rw [Game.act, refused]; rfl
    exact h.idle still (by rw [told_eq (by simp), still, List.drop_length])

end Run

/-! ## Runs -/

section
variable {levels : List Level} {rules : Rules} {seed : UInt64} {g₀ : Game} {r : Run}

theorem Run.Reachable.ended (new : Game.new levels rules seed = .ok g₀) (h : Run.Reachable g₀ r)
    (finished : r.game.phase = .finished) : r.game.Over r.events := by
  have unstarted := Game.unstarted_of_new new
  refine h.invariant (P := fun log g => g.phase = .finished → g.Over log) unstarted.silent ?_ ?_ ?_
    finished
  · intro finished
    cases unstarted.phase.symm.trans finished
  · intro log g ended finished
    exact ⟨(ended finished).last, (ended finished).blocks, (ended finished).points,
      (ended finished).solved, (ended finished).told⟩
  · intro past g g' step _ finished
    obtain playing | ⟨last, rfl⟩ := step.playing_or_conclude
    · cases playing.symm.trans finished
    · exact Game.over_finish last

theorem Run.Reachable.rescores (new : Game.new levels rules seed = .ok g₀)
    (h : Run.Reachable g₀ r) (finished : r.game.phase = .finished) {as : List Action}
    (unstarted : ∀ n, .start n ∉ as) :
    r.Rescores (as.countP Action.isNext) (as.foldl Run.act r) := by
  induction as using List.reverseRecOn with
  | nil => exact .refl r
  | append_singleton as a ih =>
    have before := ih fun n started => unstarted n (List.mem_append_left _ started)
    have reached : Run.Reachable g₀ (as.foldl Run.act r) :=
      List.foldlRecOn _ _ h fun _ reached a _ => .next a reached
    have finished' := before.phase.trans finished
    rw [List.foldl_append, List.countP_append, List.countP_singleton]
    apply before.act (reached.ended new finished') finished'
    rintro n rfl
    exact unstarted n (by simp)

/-- Once the game is over nothing changes but the score: each time that the next level is asked for,
the bonus of the last level is added again and a new final score is told. A score of 32 bits is this
one as long as they hold it. -/
theorem score_after_finish (new : Game.new levels rules seed = .ok g₀) (h : Run.Reachable g₀ r)
    (finished : r.game.phase = .finished) {as : List Action} (unstarted : ∀ n, .start n ∉ as) :
    let r' := as.foldl Run.act r
    let again := as.countP Action.isNext
    (r.events.filterMap Event.finalScore?).getLast? = some r.game.score ∧
    r'.game =
      { r.game with
        pointsAtStart := r.game.pointsAtStart + again * r.game.bonus
        events := r'.game.events
        notes := r'.game.notes } ∧
    r'.game.score = r.game.score + again * r.game.bonus ∧
    (r'.game.score = r.game.score ↔ again = 0 ∨ r.game.bonus = 0) ∧
    r'.events = r.events ++ (List.range again).flatMap r.game.encore := by
  intro r' again
  have rescored := h.rescores new finished unstarted
  have score := rescored.score
  refine ⟨(h.ended new finished).told, rescored.game, score, ?_, rescored.events⟩
  rw [score, Nat.add_eq_left, Nat.mul_eq_zero]

end

/-- The goal is reached with three points, and asking for another level makes them five. -/
theorem score_after_finish_on_doorstep :
    ∃ g₀ r, Game.new [doorstep] { Rules.standard with puffleMoveTicks := 1 } 0 = .ok g₀ ∧
      Run.Reachable g₀ r ∧ r.game.phase = .finished ∧ r.game.score = 3 ∧
      (r.act .next).game.phase = .finished ∧ (r.act .next).game.score = 5 ∧
      (r.act .next).events =
        r.events ++ [.levelCompleted 1 true 2, .allLevelsComplete 5] := by
  obtain ⟨g₀, new⟩ : ∃ g₀, Game.new [doorstep] { Rules.standard with puffleMoveTicks := 1 } 0 =
      .ok g₀ := ⟨_, rfl⟩
  let r := [.start 1, .tick (.hold .right)].foldl Run.act (.start g₀)
  have reached : Run.Reachable g₀ r := .actions _
  have played : r.game.phase = .finished ∧ r.game.score = 3 ∧ r.game.bonus = 2 ∧
      r.game.encore 0 = [.levelCompleted 1 true 2, .allLevelsComplete 5] := by
    cases new
    decide +kernel
  obtain ⟨finished, score, bonus, encore⟩ := played
  have unstarted : ∀ n, Action.start n ∉ [Action.next] := by simp
  obtain ⟨_, game, rescored, _, events⟩ := score_after_finish new reached finished unstarted
  refine ⟨g₀, r, new, reached, finished, score, ?_, ?_, ?_⟩
  · exact (congrArg Game.phase game).trans finished
  · rw [score, bonus] at rescored
    exact rescored
  · exact events.trans (congrArg (r.events ++ ·) ((List.append_nil _).trans encore))

end IceMaze
