import IceMaze.Proofs.Play.BlockNumbers
import IceMaze.Proofs.Play.Pace

/-!
What a tick hears of the directions that are held.

It is one direction at most: the first in the order of the rules that is held and free, and none at
all while the puffle moves (`tick_heard`). So any play can be played with one direction held at a
time (`Run.exists_plain_actions`), and holding none but illegal directions is idling
(`held_directions_reduce`).
-/

namespace IceMaze

namespace Input

/-- At most one direction is held. -/
def only : Option Direction → Input
  | none => .idle
  | some d => .hold d

/-- Either a restart is asked for, or at most one direction is held. -/
def Plain (input : Input) : Prop := input = .restart ∨ ∃ d?, input = .only d?

end Input

namespace Game

variable {g : Game} {input : Input}

/-- What a tick hears of an input. -/
def heard (g : Game) (input : Input) : Input :=
  if input.reset then .restart
  else if g.puffle.isMoving then .idle
  else .only (g.heads? input)

theorem plain_heard (g : Game) (input : Input) : (g.heard input).Plain := by
  unfold heard
  split
  · exact .inl rfl
  · split
    · exact .inr ⟨none, rfl⟩
    · exact .inr ⟨_, rfl⟩

theorem heads?_idle (g : Game) : g.heads? .idle = none := by
  apply List.find?_eq_none.2
  intro d _
  simp [Input.idle]

/-- Whatever else is held, the puffle sets off in the same direction. -/
theorem heads?_only (g : Game) (input : Input) :
    g.heads? (.only (g.heads? input)) = g.heads? input := by
  cases first : g.heads? input with
  | none => exact g.heads?_idle
  | some d =>
    have listed : d ∈ g.rules.priority.toList := List.mem_of_find?_eq_some first
    have chosen := List.find?_some first
    rw [Bool.and_eq_true] at chosen
    exact heads?_hold listed chosen.2

/-- A puffle on its way is not steered. -/
theorem steer_of_moving (moves : g.puffle.isMoving = true) (input : Input) : g.steer input = g :=
  if_pos moves

theorem steer_only (playing : g.phase = .playing) (rests : g.puffle.motion = none)
    (input : Input) : g.steer (.only (g.heads? input)) = g.steer input := by
  rw [steer_eq playing rests, steer_eq playing rests, heads?_only]

/-- The game in a tick before the puffle is steered. -/
def begun (g : Game) : Game := { g with events := [], ticks := g.ticks + 1 }

/-- A tick depends on its input by the way in which the puffle is steered alone. -/
theorem tick_congr {input' : Input} (going : input.reset = false) (going' : input'.reset = false)
    (same : g.begun.steer input' = g.begun.steer input) : g.tick input' = g.tick input := by
  unfold begun at same
  by_cases playing : g.phase = .playing
  · rw [tick_eq playing going, tick_eq playing going', beforeCheck, beforeCheck, approach, approach,
      same]
  · rw [tick_idle playing, tick_idle playing]

theorem reset_only (d? : Option Direction) : (Input.only d?).reset = false := by cases d? <;> rfl

theorem tick_idle_of_moving (going : input.reset = false) (moves : g.puffle.isMoving = true) :
    g.tick .idle = g.tick input := by
  have steady (i : Input) : g.begun.steer i = g.begun :=
    steer_of_moving (g := g.begun) moves i
  apply tick_congr going rfl
  rw [steady, steady]

theorem tick_only (going : input.reset = false) (rests : g.puffle.isMoving = false) :
    g.tick (.only (g.heads? input)) = g.tick input := by
  by_cases playing : g.phase = .playing
  · have still : g.puffle.motion = none := by simpa [Puffle.isMoving] using rests
    exact tick_congr going (reset_only _) (steer_only (g := g.begun) playing still input)
  · rw [tick_idle playing, tick_idle playing]

/-- What is not heard makes no difference. -/
theorem tick_heard (g : Game) (input : Input) : g.tick (g.heard input) = g.tick input := by
  unfold heard
  split
  · rename_i asked
    by_cases playing : g.phase = .playing
    · rw [tick_restart playing asked, tick_restart playing rfl]
    · rw [tick_idle playing, tick_idle playing]
  · rename_i going
    have going := Bool.eq_false_iff.2 going
    split
    · rename_i moves
      exact tick_idle_of_moving going moves
    · rename_i rests
      exact tick_only going (Bool.eq_false_iff.2 rests)

end Game

/-! ## Runs -/

namespace Run

/-- Every run can be played with at most one direction held at a time. -/
theorem exists_plain_actions (r : Run) (as : List Action) :
    ∃ bs : List Action, bs.length = as.length ∧ (∀ input, .tick input ∈ bs → input.Plain) ∧
      bs.foldl Run.act r = as.foldl Run.act r := by
  induction as generalizing r with
  | nil => exact ⟨[], rfl, nofun, rfl⟩
  | cons a as ih =>
    obtain ⟨bs, length, plain, same⟩ := ih (r.act a)
    by_cases ticks : ∃ input, a = .tick input
    · obtain ⟨input, rfl⟩ := ticks
      have first : r.act (.tick (r.game.heard input)) = r.act (.tick input) := by
        rw [Run.act, Run.act, Run.tick, Run.tick, Game.tick_heard]
      refine ⟨.tick (r.game.heard input) :: bs, congrArg (· + 1) length, ?_, ?_⟩
      · intro i hi
        rcases List.mem_cons.1 hi with here | later
        · cases here
          exact r.game.plain_heard input
        · exact plain i later
      · rw [List.foldl_cons, List.foldl_cons, first, same]
    · refine ⟨a :: bs, congrArg (· + 1) length, ?_, ?_⟩
      · intro i hi
        rcases List.mem_cons.1 hi with here | later
        · exact absurd ⟨i, here.symm⟩ ticks
        · exact plain i later
      · rw [List.foldl_cons, List.foldl_cons, same]

end Run

section
variable {levels : List Level} {rules : Rules} {seed : UInt64} {g₀ : Game} {r : Run}

/-- In play it is always known which moves are free. Directions that are held come to nothing while
the puffle moves. To a puffle at rest they come to the first of them in the order of the rules that
is free, and to nothing if none is. -/
theorem held_directions_reduce (new : Game.new levels rules seed = .ok g₀)
    (h : Run.Reachable g₀ r) (playing : r.game.phase = .playing) (input : Input)
    (going : input.reset = false) :
    (∀ d, r.game.canMove? d = some (r.game.canMove d)) ∧
    (r.game.puffle.isMoving = true → r.game.tick input = r.game.tick .idle) ∧
    (r.game.puffle.isMoving = false →
      (∀ before d after, rules.priority.toList = before ++ d :: after →
        input.held d = true → r.game.canMove d = true →
        (∀ e ∈ before, input.held e = true → r.game.canMove e = false) →
        r.game.tick input = r.game.tick (.hold d)) ∧
      ((∀ d ∈ rules.priority.toList, input.held d = true → r.game.canMove d = false) →
        r.game.tick input = r.game.tick .idle)) := by
  have order : r.game.rules.priority = rules.priority := congrArg Rules.priority (h.rules_eq new)
  have unfinished : r.game.phase ≠ .finished := by
    rw [playing]
    nofun
  refine ⟨(h.blockNumbers new).canMove?_eq unfinished, ?_, fun rests => ⟨?_, ?_⟩⟩
  · intro moves
    exact (Game.tick_idle_of_moving going moves).symm
  · intro before d after split held free passed
    have heads : r.game.heads? input = some d := by
      rw [Game.heads?, order, split]
      apply List.find?_eq_some_iff_append.2
      refine ⟨by rw [held, free]; rfl, before, after, rfl, ?_⟩
      intro e he
      cases other : input.held e with
      | false => rfl
      | true =>
        rw [passed e he other]
        rfl
    have heard := Game.tick_only going rests
    rw [heads] at heard
    exact heard.symm
  · intro barred
    have heads : r.game.heads? input = none := by
      rw [Game.heads?, order]
      apply List.find?_eq_none.2
      intro d hd
      rw [Bool.and_eq_true, not_and, Bool.not_eq_true]
      exact barred d hd
    have heard := Game.tick_only going rests
    rw [heads] at heard
    exact heard.symm

end

/-- Two of the directions that come first lead off the board, one of them twice. Once the puffle has
set off to push the block, it goes on whatever is held. -/
theorem held_directions_reduce_in_corridor :
    ∃ g₀ r, Game.new [corridor] { Rules.standard with priority := #v[.up, .left, .up, .right] } 0 =
        .ok g₀ ∧ Run.Reachable g₀ r ∧ r.game.phase = .playing ∧
      let input : Input := ⟨fun d => d ≠ .down, false⟩
      let s := r.act (.tick input)
      r.game.canMove? .up = some false ∧ r.game.tick input = r.game.tick (.hold .right) ∧
        .blockPushed 0 ⟨1, 0⟩ .right ∈ s.game.events ∧ s.game.puffle.isMoving = true ∧
        s.game.tick input = s.game.tick .idle := by
  obtain ⟨g₀, new⟩ : ∃ g₀,
      Game.new [corridor] { Rules.standard with priority := #v[.up, .left, .up, .right] } 0 =
        .ok g₀ := ⟨_, rfl⟩
  let input : Input := ⟨fun d => d ≠ .down, false⟩
  let r := (Run.start g₀).act (.start 1)
  let s := r.act (.tick input)
  have reached : Run.Reachable g₀ r := .next _ .start
  have state : r.game.phase = .playing ∧ r.game.puffle.isMoving = false ∧
      r.game.canMove .up = false ∧ r.game.canMove .left = false ∧ r.game.canMove .right = true ∧
      s.game.phase = .playing ∧ s.game.puffle.isMoving = true ∧
      .blockPushed 0 ⟨1, 0⟩ .right ∈ s.game.events := by
    cases new
    decide +kernel
  obtain ⟨playing, rests, up, left, right, playing', moves, pushed⟩ := state
  obtain ⟨answered, _, atRest⟩ := held_directions_reduce new reached playing input rfl
  obtain ⟨_, onTheWay, _⟩ :=
    held_directions_reduce new (.next (.tick input) reached) playing' input rfl
  have passed : ∀ e ∈ [Direction.up, .left, .up], input.held e = true →
      r.game.canMove e = false := by
    simp [up, left]
  refine ⟨g₀, r, new, reached, playing, ?_, ?_, pushed, moves, onTheWay moves⟩
  · rw [answered, up]
  · exact (atRest rests).1 [.up, .left, .up] .right [] rfl rfl right passed

end IceMaze
