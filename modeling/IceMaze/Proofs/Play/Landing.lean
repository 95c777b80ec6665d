import IceMaze.Proofs.Play.Settling

/-!
Where the move of a block ends.

Blocks have their turns one after the other, so a block finds those before it where they are after
this tick and those behind it where they were (`turnOf`). A block that reaches a teleporter looks
for a free cell at the other end before it has given up its own, so it never goes back to the cell
from which it comes. `block_landing` says so of every block that reaches a teleporter in a tick, and
of what is told of it.
-/

namespace IceMaze
namespace Game

open Board

variable {g : Game} {i : Nat} {b : Block} {m : Motion}

/-! ## Turns -/

theorem steps_advanceUpTo (playing : g.phase = .playing) {k n : Nat} (later : k ≤ n) :
    Steps (g.advanceUpTo k) (g.advanceUpTo n) := by
  induction n, later using Nat.le_induction with
  | base => exact .refl
  | succ n _ ih =>
    have setting : (g.advanceUpTo n).setting = g.setting := (PlaysOn.advanceAll g _).setting
    rw [advanceUpTo_succ]
    exact ih.trans (steps_advanceBlock _ n ((phase_of_setting setting).trans playing))

/-- The game in a tick when a block is about to move. The blocks before it have had their turns, and
the block itself has set off again if it slides on. -/
def turnOf (g : Game) (input : Input) (i : Nat) : Game :=
  (({ g with events := [], ticks := g.ticks + 1 }.steer input).advanceUpTo i).restartBlock i

theorem stepBlock_turnOf (g : Game) (input : Input) (i : Nat) :
    (g.turnOf input i).stepBlock i =
      ({ g with events := [], ticks := g.ticks + 1 }.steer input).advanceUpTo (i + 1) :=
  (advanceUpTo_succ _ i).symm

theorem playsOn_turnOf (g : Game) (input : Input) (i : Nat) :
    { g with events := [] }.PlaysOn (g.turnOf input i) := by
  have counted :
      { g with events := [] }.PlaysOn { g with events := [], ticks := g.ticks + 1 } :=
    .still rfl rfl rfl rfl rfl rfl
  exact (counted.trans (.steer _ input)).trans ((PlaysOn.advanceAll _ _).trans (.restartBlock _ i))

section
variable {input : Input} (playing : g.phase = .playing)
include playing

theorem playing_steer_counted (input : Input) :
    ({ g with events := [], ticks := g.ticks + 1 }.steer input).phase = .playing :=
  (phase_of_setting (setting_steer _ input)).trans playing

theorem steps_turnOf (input : Input) (i : Nat) :
    Steps { g with events := [] } (g.turnOf input i) := by
  have steered := playing_steer_counted playing input
  have advanced := steps_advanceUpTo steered (Nat.zero_le i)
  have setting := (PlaysOn.advanceAll
    ({ g with events := [], ticks := g.ticks + 1 }.steer input) (List.range i)).setting
  refine .trans (.single (.countTick playing)) ((steps_steer _ input).trans ?_)
  exact advanced.trans (steps_restartBlock _ i ((phase_of_setting setting).trans steered))

/-- What comes after the turn of a block leaves the block as it is. -/
theorem turn_in_approach (here : (g.turnOf input i).blocks[i]? = some b) :
    Steps ((g.turnOf input i).stepBlock i) (g.approach input) ∧
    (g.approach input).blocks[i]? = ((g.turnOf input i).stepBlock i).blocks[i]? := by
  have steered := playing_steer_counted playing input
  rw [stepBlock_turnOf, approach]
  generalize steered_eq : { g with events := [], ticks := g.ticks + 1 }.steer input = f
  rw [steered_eq] at steered
  have bound : i < f.blocks.length := by
    by_contra absent
    have none_there : f.blocks[i]? = none := List.getElem?_eq_none (by omega)
    have same := getElem?_advanceUpTo_of_le (g := f) (Nat.le_refl i)
    rw [turnOf, steered_eq, restartBlock, same, none_there] at here
    cases (same.trans none_there).symm.trans here
  refine ⟨steps_advanceUpTo steered bound, ?_⟩
  rw [getElem?_advanceUpTo_of_lt (Nat.lt_succ_self i)]
  exact getElem?_advanceUpTo_of_lt bound

end

/-! ## The other end -/

/-- No other block rests on the cell or moves to it, and the puffle does neither. -/
structure VacantFor (g : Game) (i : Nat) (c : Coord) : Prop where
  others : ∀ (j : Nat) a, j ≠ i → g.blocks[j]? = some a → a.target ≠ c
  puffle : c ≠ g.puffle.pos
  ahead : ∀ n, g.puffle.motion = some n → c ≠ n.target

/-- While a block lands its own last cell is still held. -/
theorem Occupancy.blockAt_landing (h : g.Occupancy) (here : g.blocks[i]? = some b)
    (moves : b.motion = some m) {c : Coord} :
    (g.setBlock i { b with motion := none }).blockAt c = none ↔
      c ≠ b.pos ∧ ∀ (j : Nat) a, j ≠ i → g.blocks[j]? = some a → a.target ≠ c := by
  have own : (g.setBlock i { b with motion := none }).blocks[i]? = some { b with motion := none } :=
    getElem?_setBlock here
  have other {j : Nat} (apart : j ≠ i) :
      (g.setBlock i { b with motion := none }).blocks[j]? = g.blocks[j]? :=
    List.getElem?_set_ne (Ne.symm apart)
  constructor
  · intro free
    refine ⟨fun at_pos => target_ne_of_blockAt free own at_pos.symm, fun j a apart there => ?_⟩
    exact target_ne_of_blockAt free ((other apart).trans there)
  · rintro ⟨left, others⟩
    have bare : (g.board.get? c).bind Tile.block = none := by
      cases on : g.board.blockOn? c with
      | none => exact on
      | some j =>
        obtain ⟨a, there, rests, pos⟩ := (h.rests c j).1 on
        have apart : j ≠ i := by
          rintro rfl
          cases here.symm.trans there
          cases moves.symm.trans rests
        exact absurd ((target_of_rests rests).trans pos) (others j a apart there)
    have same : (g.setBlock i { b with motion := none }).board = g.board := rfl
    unfold blockAt
    rw [same, bare]
    simp only
    rw [List.findIdx?_eq_none_iff]
    intro a there
    obtain ⟨j, there⟩ := List.getElem?_of_mem there
    simp only [decide_eq_false_iff_not]
    by_cases turn : j = i
    · subst turn
      cases own.symm.trans there
      exact fun at_pos => left at_pos.symm
    · exact others j a turn ((other turn).symm.trans there)

theorem blockExit?_of_link {c d : Coord} (teleporter : g.board.kind? c = some .teleporter)
    (link : g.board.link? c = some d) :
    g.blockExit? c =
      if (g.blockAt d).isNone && !g.puffleHolds d then some d else none := by
  obtain ⟨t, here, kind⟩ := Option.map_eq_some_iff.1 teleporter
  have link : t.link = some d := by
    rw [link?, here] at link
    exact link
  simp [blockExit?, here, kind, link]

/-- A block that reaches a teleporter goes on to the other end if that is vacant, unless it comes
from there. -/
theorem Occupancy.exit_iff (h : g.Occupancy) (here : g.blocks[i]? = some b)
    (moves : b.motion = some m) {c d : Coord} (teleporter : g.board.kind? c = some .teleporter)
    (link : g.board.link? c = some d) :
    ((g.setBlock i { b with motion := none }).blockExit? c = some d ↔
      d ≠ b.pos ∧ g.VacantFor i d) ∧
    ((g.setBlock i { b with motion := none }).blockExit? c = none ↔
      ¬(d ≠ b.pos ∧ g.VacantFor i d)) := by
  have vacant : ((g.setBlock i { b with motion := none }).blockAt d).isNone &&
      !(g.setBlock i { b with motion := none }).puffleHolds d ↔ d ≠ b.pos ∧ g.VacantFor i d := by
    have holds : (g.setBlock i { b with motion := none }).puffleHolds d = g.puffleHolds d := rfl
    rw [Bool.and_eq_true, Option.isNone_iff_eq_none, h.blockAt_landing here moves, holds,
      Bool.not_eq_true', puffleHolds_eq_false]
    constructor
    · rintro ⟨⟨left, others⟩, puffle, ahead⟩
      exact ⟨left, others, puffle, ahead⟩
    · rintro ⟨left, others, puffle, ahead⟩
      exact ⟨⟨left, others⟩, puffle, ahead⟩
  have exit := blockExit?_of_link (g := g.setBlock i { b with motion := none }) teleporter link
  rw [exit, ← vacant]
  constructor <;> split <;> simp_all

theorem stepBlock_of_done (here : g.blocks[i]? = some b) (moves : b.motion = some m)
    (done : m.step.isDone = true) : g.stepBlock i = g.landBlock i b m.step := by
  unfold stepBlock
  simp only [here, moves, done, if_true]

/-- A block comes to rest at the other end, and slides on from there. -/
theorem stepBlock_of_exit (here : g.blocks[i]? = some b) (moves : b.motion = some m)
    (done : m.step.isDone = true) {d : Coord}
    (exit : (g.setBlock i { b with motion := none }).blockExit? m.target = some d) :
    (g.stepBlock i).blocks[i]? = some ⟨d, none, some m.dir⟩ ∧
    (g.stepBlock i).events = g.events ++ [.blockTeleported i m.target d] := by
  rw [← target_step] at exit
  have blocks : (g.landBlock i b m.step).blocks = g.blocks.set i ⟨d, none, some m.dir⟩ := by
    simp only [landBlock, exit, Motion.dir_step]
    exact List.set_set ..
  have bound := (List.getElem?_eq_some_iff.1 here).1
  rw [stepBlock_of_done here moves done]
  refine ⟨by simp [blocks, bound], ?_⟩
  rw [events_landBlock, landEvents, exit, target_step]

/-- A block comes to rest on the cell that it reaches. -/
theorem blocks_stepBlock_of_no_exit (here : g.blocks[i]? = some b) (moves : b.motion = some m)
    (done : m.step.isDone = true)
    (exit : (g.setBlock i { b with motion := none }).blockExit? m.target = none) :
    (g.stepBlock i).blocks = g.blocks.set i
      ⟨m.target, none, if g.rules.momentum = .slide then some m.dir else none⟩ := by
  rw [← target_step] at exit
  rw [stepBlock_of_done here moves done]
  simp only [landBlock, exit]
  rw [target_step, Motion.dir_step]
  have rules : (g.setBlock i { b with motion := none }).rules = g.rules := rfl
  rw [rules]
  cases g.rules.momentum <;> exact List.set_set ..

theorem stepBlock_of_no_exit (here : g.blocks[i]? = some b) (moves : b.motion = some m)
    (done : m.step.isDone = true)
    (exit : (g.setBlock i { b with motion := none }).blockExit? m.target = none) :
    (g.stepBlock i).blocks[i]? =
      some ⟨m.target, none, if g.rules.momentum = .slide then some m.dir else none⟩ ∧
    (g.stepBlock i).events = g.events := by
  have bound := (List.getElem?_eq_some_iff.1 here).1
  refine ⟨by simp [blocks_stepBlock_of_no_exit here moves done exit, bound], ?_⟩
  rw [← target_step] at exit
  rw [stepBlock_of_done here moves done, events_landBlock, landEvents, exit, List.append_nil]

end Game

/-! ## Runs -/

section
variable {levels : List Level} {rules : Rules} {seed : UInt64} {g₀ : Game} {r : Run}

/-- A block that reaches a teleporter in a tick is carried to the other end, and this is told, if it
does not come from there and the cell is vacant for it. Else it rests on the teleporter, and nothing
is told of it. -/
theorem block_landing (new : Game.new levels rules seed = .ok g₀)
    (accepted : ∀ l ∈ levels, l.Accepted)
    (distinct : ∀ l ∈ levels, l.blocks.Nodup ∧ l.spawn ∉ l.blocks) (h : Run.Reachable g₀ r)
    (playing : r.game.phase = .playing) {input : Input} (going : input.reset = false) {i : Nat}
    {b : Block} {m : Motion} {partner : Coord}
    (here : (r.game.turnOf input i).blocks[i]? = some b) (moves : b.motion = some m)
    (done : m.step.isDone = true)
    (teleporter : (r.game.turnOf input i).board.kind? m.target = some .teleporter)
    (link : (r.game.turnOf input i).board.link? m.target = some partner) :
    let before := r.game.turnOf input i
    let after := before.stepBlock i
    m.target ≠ partner ∧
    (r.game.approach input).blocks[i]? = after.blocks[i]? ∧
    after.events <+: (r.game.tick input).events ∧
    (partner ≠ b.pos ∧ before.VacantFor i partner →
      after.blocks[i]? = some ⟨partner, none, some m.dir⟩ ∧
      after.events = before.events ++ [.blockTeleported i m.target partner]) ∧
    (¬(partner ≠ b.pos ∧ before.VacantFor i partner) →
      after.blocks[i]? =
        some ⟨m.target, none, if rules.momentum = .slide then some m.dir else none⟩ ∧
      after.events = before.events) := by
  intro before after
  have uncrowded := Level.uncrowded_of_accepted accepted distinct
  have plays : { r.game with events := [] }.PlaysOn before := r.game.playsOn_turnOf input i
  have playing' : before.phase = .playing := (Game.phase_of_setting plays.setting).trans playing
  have occupancy : before.Occupancy := by
    have held := h.occupancy new uncrowded playing
    have cleared : { r.game with events := [] }.Occupancy :=
      held.sameGround (.of_board rfl rfl rfl) rfl held.clear
    refine (Game.Steps.keeps (Q := fun g => g.setting.Loaded levels ∧
      (g.phase = .playing → g.Occupancy)) (fun g g' step hg => ?_)
      (Game.steps_turnOf playing input i) ⟨h.loaded new, fun _ => cleared⟩).2 playing'
    exact ⟨step.loaded hg.1, step.occupancy uncrowded hg.1 hg.2⟩
  have paired : before.board.Paired := by
    obtain ⟨es, _, plays⟩ := plays
    exact plays.keeps (P := fun _ g => g.board.Paired) (fun _ _ _ _ op => op.paired) []
      (h.portals new).paired
  have same_rules : before.rules = rules :=
    (Game.rules_of_setting plays.setting).trans (h.rules_eq new)
  obtain ⟨exits, stays⟩ := occupancy.exit_iff here moves teleporter link
  obtain ⟨later, same⟩ := Game.turn_in_approach playing here
  refine ⟨paired.apart _ _ link, same, ?_, fun vacant => ?_, fun held => ?_⟩
  · have approached : (r.game.approach input).phase = .playing :=
      (Game.phase_of_setting (r.game.setting_approach input)).trans playing
    rw [Game.tick_eq playing going]
    exact Run.events_prefix_steps (later.trans ((Game.steps_advancePuffle _ approached).trans
      (Game.steps_checkStuck _)))
  · exact Game.stepBlock_of_exit here moves done (exits.2 vacant)
  · rw [← same_rules]
    exact Game.stepBlock_of_no_exit here moves done (stays.2 held)

end

/-- Two ends of a teleporter side by side, with a block on the nearer one. -/
def threshold : Level where
  origin := .zero
  spawn := .zero
  tiles := .set (.set (.filled 4 1 .empty) 1 0 .teleporter) 2 0 .teleporter
  keys := []
  blocks := [⟨1, 0⟩]
  bag := none
  patches := []

/-- The puffle has pushed the block from the first end to the second and has stepped back, so the
first end is vacant when the block reaches the second. The block stays there, as it comes from the
first end. -/
theorem block_landing_on_threshold :
    ∃ g₀ r, Game.new [threshold] { Rules.standard with puffleMoveTicks := 1 } 0 = .ok g₀ ∧
      Run.Reachable g₀ r ∧ (r.game.turnOf .idle 0).VacantFor 0 ⟨1, 0⟩ ∧
      (r.game.turnOf .idle 0).board.link? ⟨2, 0⟩ = some ⟨1, 0⟩ ∧
      (r.game.turnOf .idle 0).blocks[0]? =
        some ⟨⟨1, 0⟩, some ⟨⟨1, 0⟩, ⟨2, 0⟩, .right, 2, 3⟩, none⟩ ∧
      (r.game.approach .idle).blocks[0]? = some ⟨⟨2, 0⟩, none, some .right⟩ := by
  obtain ⟨g₀, new⟩ : ∃ g₀, Game.new [threshold]
      { Rules.standard with puffleMoveTicks := 1 } 0 = .ok g₀ := ⟨_, rfl⟩
  let r := [.start 1, .tick (.hold .right), .tick (.hold .left)].foldl Run.act (.start g₀)
  have reached : Run.Reachable g₀ r := .actions _
  have played : r.game.phase = .playing ∧ (r.game.turnOf .idle 0).puffle = ⟨.zero, none, 0⟩ ∧
      (r.game.turnOf .idle 0).blocks =
        [⟨⟨1, 0⟩, some ⟨⟨1, 0⟩, ⟨2, 0⟩, .right, 2, 3⟩, none⟩] ∧
      (r.game.turnOf .idle 0).board.kind? ⟨2, 0⟩ = some .teleporter ∧
      (r.game.turnOf .idle 0).board.link? ⟨2, 0⟩ = some ⟨1, 0⟩ := by
    cases new
    decide +kernel
  obtain ⟨playing, puffle, blocks, teleporter, link⟩ := played
  have vacant : (r.game.turnOf .idle 0).VacantFor 0 ⟨1, 0⟩ := by
    refine ⟨fun j a other there => ?_, by rw [puffle]; decide, by rw [puffle]; nofun⟩
    rw [blocks, List.getElem?_eq_none (by simp; omega)] at there
    cases there
  have here : (r.game.turnOf .idle 0).blocks[0]? =
      some ⟨⟨1, 0⟩, some ⟨⟨1, 0⟩, ⟨2, 0⟩, .right, 2, 3⟩, none⟩ := by
    rw [blocks]
    rfl
  have accepted : ∀ l ∈ [threshold], l.Accepted := by decide
  obtain ⟨_, same, _, _, stays⟩ := block_landing new accepted (by decide) reached playing rfl here
    rfl (by decide) teleporter link
  refine ⟨g₀, r, new, reached, vacant, link, here, ?_⟩
  rw [same]
  exact (stays fun back => back.1 rfl).1

end IceMaze
