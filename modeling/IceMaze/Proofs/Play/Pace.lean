import IceMaze.Proofs.Play.Frame
import IceMaze.Proofs.Play.Ledger
import IceMaze.Proofs.Play.Settling

/-!
The pace of the puffle, on levels without blocks.

A move comes to the same as if the puffle arrived at once, which is `leap`: on the way nothing else
happens (`settle_walking`). A leap does not depend on the pace (`leap_eq`), so games that are
played at different paces differ by their clocks alone.
-/

namespace IceMaze

namespace Game

variable {g g' : Game} {input : Input} {m : Motion}

/-- A game without its frame. -/
def bare (g : Game) : Game :=
  { g with rules := { g.rules with puffleMoveTicks := 0 }, ticks := 0, events := [] }

/-- A game of which nothing has been told. -/
def hushed (g : Game) : Game := { g with events := [] }

/-- The frame of the next tick. -/
def clock (g : Game) : Frame := ⟨g.rules.puffleMoveTicks, g.ticks + 1, []⟩

theorem under_bare (g : Game) : g.bare.under ⟨g.rules.puffleMoveTicks, g.ticks, g.events⟩ = g := by
  simp [bare, under]

theorem hushed_eq (g : Game) :
    g.hushed = g.bare.under ⟨g.rules.puffleMoveTicks, g.ticks, []⟩ := rfl

/-- Everything is at rest, or no level is played. -/
def AtRest (g : Game) : Prop := g.isSettled = true ∨ g.phase ≠ .playing

/-! ## Leaps -/

/-- The puffle's move ends on a cell, and the check follows. -/
def land (g : Game) (c : Coord) : Game := ((g.arrive c).enterTile c).checkStuck

/-- The direction in which a puffle at rest sets off. -/
def heads? (g : Game) (input : Input) : Option Direction :=
  g.rules.priority.toList.find? fun d => input.held d && g.canMove d

theorem heads?_hold {d : Direction} (listed : d ∈ g.rules.priority.toList)
    (free : g.canMove d = true) : g.heads? (.hold d) = some d := by
  cases head : g.heads? (.hold d) with
  | none =>
    have idle := List.find?_eq_none.1 head d listed
    simp [Input.hold, free] at idle
  | some e =>
    have held := List.find?_some head
    have same : e = d := by
      simp only [Input.hold, Bool.and_eq_true, decide_eq_true_eq] at held
      exact held.1
    rw [same]

/-- A move with all that comes of it, in one go. -/
def leap (g : Game) (input : Input) : Game :=
  if g.phase ≠ .playing then g.hushed
  else if input.reset then g.hushed.resetLevel
  else match g.heads? input with
    | none => g.hushed.checkStuck
    | some d => (g.hushed.startMove d).land (g.puffle.pos.step d)

theorem under_land (g : Game) (f : Frame) (c : Coord) :
    (g.under f).land c = (g.land c).under f := by
  have arrived : (g.under f).arrive c = (g.arrive c).under f := rfl
  rw [land, arrived, under_enterTile, under_checkStuck, land]

theorem under_land_startMove (g : Game) (f : Frame) (d : Direction) (c : Coord) :
    ((g.under f).startMove d).land c = ((g.startMove d).land c).under f := by
  rw [land, under_arrive_startMove, under_enterTile, under_checkStuck, land]

/-- What has been told before the puffle lands, and when it lands, makes no difference. -/
theorem land_later (g : Game) (c : Coord) (time : Nat) :
    let later := { g with events := [], ticks := time }
    (g.land c).events = g.events ++ (later.land c).events ∧
      (g.land c).bare = (later.land c).bare := by
  intro later
  have framed : later.under ⟨g.rules.puffleMoveTicks, g.ticks, g.events⟩ = g := by
    simp [later, under]
  rw [← framed, under_land, framed]
  exact ⟨rfl, rfl⟩

/-- A leap is the same in any frame. -/
theorem leap_eq (g : Game) (input : Input) :
    g.leap input = (g.bare.leap input).under ⟨g.rules.puffleMoveTicks, g.ticks, []⟩ := by
  have phase : g.bare.phase = g.phase := rfl
  have heads : g.bare.heads? input = g.heads? input := rfl
  have pos : g.bare.puffle.pos = g.puffle.pos := rfl
  have quiet : g.bare.hushed = g.bare := rfl
  simp only [leap, phase, heads, pos, quiet]
  rw [hushed_eq]
  split
  · rfl
  · split
    · exact under_resetLevel _ _
    · cases g.heads? input with
      | none => exact under_checkStuck _ _
      | some d => exact under_land_startMove _ _ d _

theorem leap_congr (same : g'.bare = g.bare) (input : Input) :
    (g'.leap input).events = (g.leap input).events ∧
      (g'.leap input).bare = (g.leap input).bare := by
  rw [leap_eq g', leap_eq g, same]
  exact ⟨rfl, rfl⟩

/-! ## Without blocks -/

theorem advanceBlocks_of_blockless (blockless : g.blocks = []) : g.advanceBlocks = g := by
  rw [advanceBlocks, blockless]
  rfl

theorem isSettled_of_blockless (blockless : g.blocks = []) (rests : g.puffle.motion = none) :
    g.isSettled = true :=
  isSettled_iff.2 ⟨rests, by simp [blockless]⟩

theorem blockless_startMove (blockless : g.blocks = []) (d : Direction) :
    (g.startMove d).blocks = [] := by
  refine List.eq_nil_iff_forall_not_mem.2 fun b here => ?_
  obtain old | ⟨a, old, _⟩ := mem_blocks_startMove here
  · rw [blockless] at old
    cases old
  · rw [blockless] at old
    cases old

theorem settled_resetLevel (settled : g.isSettled = true) : g.resetLevel.isSettled = true := by
  obtain same | ⟨l, opened⟩ := g.resetLevel_cases
  · rwa [same]
  · exact opened.settled

theorem settled_checkStuck (settled : g.isSettled = true) : g.checkStuck.isSettled = true := by
  obtain ⟨_, same⟩ | ⟨_, _, _, ⟨_, same⟩ | ⟨_, same⟩⟩ := g.checkStuck_cases
  · rwa [same]
  · rwa [same]
  · rw [same]
    exact settled_resetLevel settled

theorem advancePuffle_of_done (moves : g.puffle.motion = some m) (done : m.step.isDone = true) :
    g.advancePuffle.checkStuck = g.land m.target := by
  unfold advancePuffle
  simp only [moves, done, if_true, target_step]
  rfl

theorem advancePuffle_of_going (moves : g.puffle.motion = some m)
    (going : m.step.isDone = false) :
    g.advancePuffle.checkStuck = { g with puffle := { g.puffle with motion := some m.step } } := by
  simp [advancePuffle, moves, going, checkStuck, Game.isSettled, Puffle.isMoving]

/-- Wherever the puffle lands, everything is at rest. -/
theorem atRest_land (blockless : g.blocks = []) (moves : g.puffle.motion = some m)
    (done : m.step.isDone = true) : (g.land m.target).AtRest := by
  have advance := advance_enterTile moves done
  unfold land
  generalize (g.arrive m.target).enterTile m.target = g' at advance
  have rest (blocks : g'.blocks = g.blocks) (stands : g'.puffle.motion = none) :
      g'.checkStuck.AtRest :=
    .inl (settled_checkStuck (isSettled_of_blockless (blocks.trans blockless) stands))
  cases advance with
  | rest rests => cases rests.symm.trans moves
  | walk moves' going =>
    cases moves.symm.trans moves'
    cases done.symm.trans going
  | leaveBoard => exact rest rfl rfl
  | reachGoal =>
    rw [checkStuck_goToNextLevel]
    obtain ⟨l, _, next⟩ | ⟨_, ended⟩ := Game.goToNextLevel_cases _
    · rw [next]
      exact .inl (opened_load _ _).settled
    · rw [ended]
      right
      nofun
  | enterLock => exact rest (blocks_enterLock _) (by simp)
  | enterTeleporter => exact rest (blocks_enterTeleporter _ _) (by simp)
  | enterPlain => exact rest (blocks_enterPlain _) (by simp)

theorem steer_eq (playing : g.phase = .playing) (rests : g.puffle.motion = none) (input : Input) :
    g.steer input = match g.heads? input with
      | none => g
      | some d => g.startMove d := by
  have started (ds : List Direction) :
      (ds.findSome? fun d => if input.held d then g.attemptMove d else none) =
        (ds.find? fun d => input.held d && g.canMove d).map g.startMove := by
    induction ds with
    | nil => rfl
    | cons d ds ih =>
      rw [List.findSome?_cons, List.find?_cons, ih]
      cases held : input.held d with
      | false => rfl
      | true =>
        cases free : g.canMove d with
        | false => simp [attemptMove, free]
        | true => simp [attemptMove, playing, Puffle.isMoving, rests, free]
  rw [steer, if_neg (by simp [Puffle.isMoving, rests]), started, heads?]
  cases g.rules.priority.toList.find? fun d => input.held d && g.canMove d with
  | none => rfl
  | some d => rfl

/-! ## Ticks -/

theorem tick_of_blockless {h : Game} (playing : g.phase = .playing) (going : input.reset = false)
    (steered : (g.hushed.under g.clock).steer input = h) (blockless : h.blocks = []) :
    g.tick input = h.advancePuffle.checkStuck := by
  have approached : g.approach input = ((g.hushed.under g.clock).steer input).advanceBlocks := rfl
  rw [tick_eq playing going, beforeCheck, approached, steered, advanceBlocks_of_blockless blockless]

/-- The puffle stays where it is. -/
theorem tick_of_stay (playing : g.phase = .playing) (going : input.reset = false)
    (blockless : g.blocks = []) (rests : g.puffle.motion = none)
    (stays : g.heads? input = none) : g.tick input = g.hushed.checkStuck.under g.clock := by
  have same : (g.hushed.under g.clock).heads? input = g.heads? input := rfl
  have rests' : (g.hushed.under g.clock).puffle.motion = none := rests
  have steered := steer_eq (g := g.hushed.under g.clock) playing rests input
  rw [same, stays] at steered
  have still : (g.hushed.under g.clock).advancePuffle = g.hushed.under g.clock := by
    rw [advancePuffle, rests']
  rw [tick_of_blockless playing going steered blockless, still, under_checkStuck]

/-- The puffle sets off. -/
theorem tick_of_start {d : Direction} (playing : g.phase = .playing) (going : input.reset = false)
    (blockless : g.blocks = []) (rests : g.puffle.motion = none)
    (starts : g.heads? input = some d) :
    let s := (g.hushed.under g.clock).startMove d
    g.tick input = s.advancePuffle.checkStuck ∧ s.blocks = [] ∧ s.phase = .playing ∧
      s.puffle.motion = some (.start g.puffle.pos (g.puffle.pos.step d) d
        g.rules.puffleMoveTicks) := by
  intro s
  have same : (g.hushed.under g.clock).heads? input = g.heads? input := rfl
  have steered := steer_eq (g := g.hushed.under g.clock) playing rests input
  rw [same, starts] at steered
  have blockless' : s.blocks = [] := blockless_startMove (g := g.hushed.under g.clock) blockless d
  refine ⟨tick_of_blockless playing going steered blockless', blockless', ?_, ?_⟩
  · exact (phase_of_setting (setting_startMove _ d)).trans playing
  · exact congrArg Puffle.motion (puffle_startMove _)

end Game

/-! ## Moves -/

namespace Run

open Game

variable {r : Run} {m : Motion} {input : Input}

theorem settle_of_rest (rest : r.game.AtRest) (limit : Nat) : r.settle limit = r := by
  have rests : r.isAtRest = true := by simpa [isAtRest, AtRest] using rest
  cases limit with
  | zero => rfl
  | succ limit => rw [settle, if_pos rests]

/-- Everything comes to rest when the puffle lands, and until then only the clock goes on. -/
theorem settle_walking {ticks limit : Nat} (playing : r.game.phase = .playing)
    (blockless : r.game.blocks = []) (moves : r.game.puffle.motion = some m)
    (timed : m.Timed ticks) (enough : m.left ≤ limit) :
    ∃ time, let g := { r.game with events := [], ticks := time }.land m.target
      r.settle limit = ⟨g, r.events ++ g.events⟩ ∧ g.AtRest := by
  induction limit generalizing r m with
  | zero =>
    have := timed.left_step
    omega
  | succ limit ih =>
    have restless : ¬(r.isAtRest = true) := by
      simp [isAtRest, playing, Game.isSettled, Puffle.isMoving, moves]
    let begun := r.game.hushed.under r.game.clock
    have moves' : begun.puffle.motion = some m := moves
    have ticked : r.game.tick .idle = begun.advancePuffle.checkStuck :=
      tick_of_blockless playing rfl (steer_idle _) blockless
    rw [settle, if_neg restless]
    cases done : m.step.isDone with
    | true =>
      rw [advancePuffle_of_done moves' done] at ticked
      have rest : (begun.land m.target).AtRest := atRest_land blockless moves' done
      refine ⟨r.game.ticks + 1, ?_, rest⟩
      rw [Run.tick, ticked]
      exact settle_of_rest rest limit
    | false =>
      -- the tick changes nothing but the motion and the clock, which a landing does not look at
      rw [advancePuffle_of_going moves' done] at ticked
      let walked := { begun with puffle := { begun.puffle with motion := some m.step } }
      have next : r.tick .idle = ⟨walked, r.events⟩ := by
        rw [Run.tick, ticked]
        exact congrArg _ (List.append_nil _)
      have due := timed.left_step
      have walks := @ih ⟨walked, r.events⟩ m.step playing blockless rfl (timed.step done) (by omega)
      rw [next]
      rwa [target_step] at walks

/-- A run has come to `g`, which tells of what came after `log`. -/
structure ComesTo (log : List Event) (g : Game) (r : Run) : Prop where
  bare : r.game.bare = g.bare
  events : r.events = log ++ g.events
  rest : r.game.AtRest

theorem ComesTo.of_under {log : List Event} {g : Game} {f : Frame} (fresh : f.past = [])
    (h : ComesTo log (g.under f) r) : ComesTo log g r := by
  have told : (g.under f).events = g.events := by
    rw [under, fresh]
    rfl
  exact ⟨h.bare, told ▸ h.events, h.rest⟩

/-- One tick may be the whole move. -/
theorem comesTo_of_tick {limit : Nat} {g : Game} (ticked : r.game.tick input = g)
    (rest : g.AtRest) : ComesTo r.events g (r.move limit input) := by
  subst ticked
  rw [move, settle_of_rest rest]
  exact ⟨rfl, rfl, rest⟩

/-- A move that goes on after its first tick ends where the puffle lands. -/
theorem comesTo_land {ticks limit : Nat} {g : Game} (playing : g.phase = .playing)
    (blockless : g.blocks = []) (timed : m.Timed ticks) (going : m.step.isDone = false)
    (enough : ticks ≤ limit)
    (ticked : r.game.tick input = { g with puffle := { g.puffle with motion := some m.step } }) :
    ComesTo r.events (g.land m.target) (r.move limit input) := by
  let walking := { g with puffle := { g.puffle with motion := some m.step } }
  have begun : r.tick input = ⟨walking, r.events ++ walking.events⟩ := by
    rw [Run.tick, ticked]
  have left : m.step.left ≤ limit := by
    have taken := timed.left_step
    have bound := timed.left_le
    have due := (timed.step going).left_step
    omega
  obtain ⟨time, settled, rest⟩ := settle_walking (r := ⟨walking, r.events ++ walking.events⟩)
    playing blockless rfl (timed.step going) left
  obtain ⟨told, same⟩ := land_later walking m.step.target time
  have landed : walking.land m.step.target = g.land m.target := by
    rw [target_step]
    rfl
  rw [move, begun, settled, ← landed]
  refine ⟨same.symm, ?_, rest⟩
  rw [told, List.append_assoc]

theorem comesTo_leap_of_reset (limit : Nat) (playing : r.game.phase = .playing)
    (settled : r.game.isSettled = true) (asked : input.reset = true) :
    ComesTo r.events (r.game.leap input) (r.move limit input) := by
  rw [leap, if_neg (not_not_intro playing), if_pos asked]
  have ticked : r.game.tick input = r.game.hushed.resetLevel.under r.game.clock :=
    (tick_restart playing asked).trans (under_resetLevel r.game.hushed r.game.clock)
  refine ComesTo.of_under (f := r.game.clock) rfl (comesTo_of_tick ticked (.inl ?_))
  exact settled_resetLevel (g := r.game.hushed) settled

theorem comesTo_leap_of_stay (limit : Nat) (playing : r.game.phase = .playing)
    (settled : r.game.isSettled = true) (blockless : r.game.blocks = [])
    (going : input.reset = false) (stays : r.game.heads? input = none) :
    ComesTo r.events (r.game.leap input) (r.move limit input) := by
  rw [leap, if_neg (not_not_intro playing), if_neg (by simp [going]), stays]
  have ticked := tick_of_stay playing going blockless (isSettled_iff.1 settled).1 stays
  refine ComesTo.of_under (f := r.game.clock) rfl (comesTo_of_tick ticked (.inl ?_))
  exact settled_checkStuck (g := r.game.hushed) settled

theorem comesTo_leap_of_start {d : Direction} {limit : Nat} (playing : r.game.phase = .playing)
    (settled : r.game.isSettled = true) (blockless : r.game.blocks = [])
    (going : input.reset = false) (starts : r.game.heads? input = some d)
    (enough : r.game.rules.puffleMoveTicks ≤ limit) :
    ComesTo r.events (r.game.leap input) (r.move limit input) := by
  rw [leap, if_neg (not_not_intro playing), if_neg (by simp [going]), starts]
  obtain ⟨ticked, blockless', playing', moves⟩ :=
    tick_of_start playing going blockless (isSettled_iff.1 settled).1 starts
  refine ComesTo.of_under (f := r.game.clock) rfl ?_
  rw [← under_land_startMove]
  generalize (r.game.hushed.under r.game.clock).startMove d = s at *
  generalize begins : Motion.start r.game.puffle.pos (r.game.puffle.pos.step d) d
    r.game.rules.puffleMoveTicks = m at *
  have target : r.game.puffle.pos.step d = m.target := begins ▸ rfl
  have timed : m.Timed r.game.rules.puffleMoveTicks := begins ▸ .start ..
  rw [target]
  cases done : m.step.isDone with
  | true =>
    rw [advancePuffle_of_done moves done] at ticked
    exact comesTo_of_tick ticked (atRest_land blockless' moves done)
  | false =>
    rw [advancePuffle_of_going moves done] at ticked
    exact comesTo_land playing' blockless' timed done enough ticked

/-- A move at any pace comes to a leap. -/
theorem comesTo_leap {limit : Nat} (blockless : r.game.phase = .playing → r.game.blocks = [])
    (rest : r.game.AtRest) (enough : r.game.rules.puffleMoveTicks ≤ limit) (input : Input) :
    ComesTo r.events (r.game.leap input) (r.move limit input) := by
  by_cases playing : r.game.phase = .playing
  · have settled : r.game.isSettled = true := rest.resolve_right (not_not_intro playing)
    cases asked : input.reset with
    | true => exact comesTo_leap_of_reset limit playing settled asked
    | false =>
      cases heads : r.game.heads? input with
      | none => exact comesTo_leap_of_stay limit playing settled (blockless playing) asked heads
      | some d =>
        exact comesTo_leap_of_start playing settled (blockless playing) asked heads enough
  · rw [leap, if_pos playing]
    exact comesTo_of_tick (tick_idle playing) (.inr playing)

theorem Reachable.settle {g₀ : Game} (h : Reachable g₀ r) (limit : Nat) :
    Reachable g₀ (r.settle limit) := by
  induction limit generalizing r with
  | zero => exact h
  | succ limit ih =>
    rw [Run.settle]
    split
    · exact h
    · exact ih (.next (.tick .idle) h)

theorem Reachable.move {g₀ : Game} (h : Reachable g₀ r) (limit : Nat) (input : Input) :
    Reachable g₀ (r.move limit input) :=
  (Reachable.next (.tick input) h).settle limit

/-! ## Runs at different paces -/

section
variable {levels : List Level} {rules : Rules} {pace : Nat} {seed : UInt64} {g₀ g₀' : Game}
  {r' : Run}

theorem Reachable.blockless (new : Game.new levels rules seed = .ok g₀)
    (accepted : ∀ l ∈ levels, l.Accepted) (none : ∀ l ∈ levels, l.blocks = [])
    (h : Reachable g₀ r) (playing : r.game.phase = .playing) : r.game.blocks = [] := by
  have uncrowded : ∀ l ∈ levels, l.Uncrowded := fun l hl =>
    ⟨(accepted l hl).wellPlaced, by simp [none l hl], by simp [none l hl]⟩
  have loaded := h.loaded new
  obtain ⟨l, layout⟩ := loaded.exists_layout playing
  obtain ⟨l, _, here, rfl, _⟩ := loaded.layout_eq l layout
  have count := (h.occupancy new uncrowded playing).count _ layout
  have bare : (l.variant r.game.setting.altApplied).blocks = [] := by
    rw [← none l (List.mem_of_getElem? here)]
    unfold Level.variant
    split <;> rfl
  rw [bare] at count
  exact List.eq_nil_of_length_eq_zero count

/-- Two runs have come to the same, beside their clocks. -/
structure Agree (r r' : Run) : Prop where
  rest : r.game.AtRest
  rest' : r'.game.AtRest
  bare : r'.game.bare = r.game.bare
  events : r'.events = r.events

theorem agree_start (new : Game.new levels rules seed = .ok g₀)
    (new' : Game.new levels { rules with puffleMoveTicks := pace } seed = .ok g₀') (n : Nat) :
    Agree ((start g₀).act (.start n)) ((start g₀').act (.start n)) := by
  have framed : g₀' = g₀.under ⟨pace, 0, []⟩ := by
    unfold Game.new at new new'
    split at new
    · cases new
    · rename_i some
      rw [if_neg some] at new'
      cases new
      cases new'
      rfl
  have same : g₀'.level? n = g₀.level? n := framed ▸ rfl
  cases found : g₀.level? n with
  | none =>
    have idle : g₀.phase ≠ .playing := by simp [(unstarted_of_new new).phase]
    have refused {g : Game} (absent : g.level? n = none) :
        (start g).act (.start n) = start g := by
      simp [act, start, Game.act, startLevel, absent]
    rw [refused found, refused (same.trans found)]
    exact ⟨.inr idle, framed ▸ .inr idle, framed ▸ rfl, rfl⟩
  | some l =>
    have settled : (g₀.load n l).isSettled = true := (opened_load n l).settled
    have framed' : g₀'.load n l = (g₀.load n l).under ⟨pace, 0, []⟩ := by
      rw [framed, under_load]
    have coin : g₀'.flipCoin l = g₀.flipCoin l := framed ▸ rfl
    rw [start_eq new found, start_eq new' (same.trans found), framed', coin]
    generalize g₀.load n l = g at settled
    exact ⟨.inl settled, .inl settled, rfl, rfl⟩

/-- The same move at two paces comes to the same. -/
theorem Agree.move {limit limit' : Nat} (agree : Agree r r')
    (blockless : r.game.phase = .playing → r.game.blocks = [])
    (enough : r.game.rules.puffleMoveTicks ≤ limit)
    (enough' : r'.game.rules.puffleMoveTicks ≤ limit') (input : Input) :
    Agree (r.move limit input) (r'.move limit' input) := by
  have blockless' : r'.game.phase = .playing → r'.game.blocks = [] := by
    have phase : r'.game.phase = r.game.phase := congrArg (·.phase) agree.bare
    have blocks : r'.game.blocks = r.game.blocks := congrArg (·.blocks) agree.bare
    rwa [phase, blocks]
  obtain ⟨told, same⟩ := leap_congr agree.bare input
  have comes := comesTo_leap blockless agree.rest enough input
  have comes' := comesTo_leap blockless' agree.rest' enough' input
  refine ⟨comes.rest, comes'.rest, ?_, ?_⟩
  · rw [comes'.bare, same, comes.bare]
  · rw [comes'.events, told, agree.events, comes.events]

theorem Agree.moves {limit limit' : Nat} (new : Game.new levels rules seed = .ok g₀)
    (new' : Game.new levels { rules with puffleMoveTicks := pace } seed = .ok g₀')
    (accepted : ∀ l ∈ levels, l.Accepted) (blockless : ∀ l ∈ levels, l.blocks = [])
    (enough : rules.puffleMoveTicks ≤ limit) (enough' : pace ≤ limit')
    (reached : Reachable g₀ r) (reached' : Reachable g₀' r') (agree : Agree r r')
    (inputs : List Input) :
    Agree (inputs.foldl (Run.move limit) r) (inputs.foldl (Run.move limit') r') := by
  induction inputs generalizing r r' with
  | nil => exact agree
  | cons input inputs ih =>
    refine ih (reached.move limit input) (reached'.move limit' input) ?_
    refine agree.move (reached.blockless new accepted blockless) ?_ ?_ input
    · rwa [reached.rules_eq new]
    · rwa [reached'.rules_eq new']

end

end Run

section
variable {levels : List Level} {rules : Rules} {pace : Nat} {seed : UInt64} {g₀ g₀' : Game}

/-- On levels without blocks the same moves come to the same game at any pace of the puffle. Only
the clock tells the difference, and which of the events are those of the last tick. -/
theorem same_play_at_any_pace (new : Game.new levels rules seed = .ok g₀)
    (new' : Game.new levels { rules with puffleMoveTicks := pace } seed = .ok g₀')
    (accepted : ∀ l ∈ levels, l.Accepted) (blockless : ∀ l ∈ levels, l.blocks = [])
    {limit limit' : Nat} (enough : rules.puffleMoveTicks ≤ limit) (enough' : pace ≤ limit')
    (n : Nat) (inputs : List Input) :
    let r := inputs.foldl (Run.move limit) ((Run.start g₀).act (.start n))
    let r' := inputs.foldl (Run.move limit') ((Run.start g₀').act (.start n))
    r.isAtRest = true ∧ r'.isAtRest = true ∧ r'.events = r.events ∧
      r'.game = { r.game with
        rules := { r.game.rules with puffleMoveTicks := pace }
        ticks := r'.game.ticks
        events := r'.game.events } := by
  intro r r'
  have reached : Run.Reachable g₀ r :=
    List.foldlRecOn _ _ (.next (.start n) .start) fun _ h input _ => h.move limit input
  have reached' : Run.Reachable g₀' r' :=
    List.foldlRecOn _ _ (.next (.start n) .start) fun _ h input _ => h.move limit' input
  have agree : Run.Agree r r' := (Run.agree_start new new' n).moves new new' accepted blockless
    enough enough' (.next _ .start) (.next _ .start) inputs
  have rules_eq : r.game.rules = rules := reached.rules_eq new
  have rules_eq' : r'.game.rules = { rules with puffleMoveTicks := pace } := reached'.rules_eq new'
  refine ⟨by simpa [Run.isAtRest, Game.AtRest] using agree.rest,
    by simpa [Run.isAtRest, Game.AtRest] using agree.rest', agree.events, ?_⟩
  rw [← Game.under_bare r'.game, agree.bare, rules_eq']
  rfl

end

theorem doorstep_and_pond_accepted : ∀ l ∈ [doorstep, pond], l.Accepted := by
  decide

/-- Over the goal of the first level, into the dead end of the second, and a restart: three ticks at
one pace, nine at the other. -/
theorem same_play_at_two_paces :
    ∃ g₀ g₀' r r',
      Game.new [doorstep, pond] { Rules.standard with puffleMoveTicks := 1 } 0 = .ok g₀ ∧
      Game.new [doorstep, pond] { Rules.standard with puffleMoveTicks := 4 } 0 = .ok g₀' ∧
      r = [.hold .right, .hold .right, .restart].foldl (Run.move 1)
        ((Run.start g₀).act (.start 1)) ∧
      r' = [.hold .right, .hold .right, .restart].foldl (Run.move 4)
        ((Run.start g₀').act (.start 1)) ∧
      r.game.ticks = 3 ∧ r'.game.ticks = 9 ∧ r.game.levelNumber = 2 ∧ r.game.timesFailed = 2 ∧
      r'.isAtRest = true ∧ r'.events = r.events ∧ r'.game.levelNumber = 2 ∧
      r'.game.timesFailed = 2 := by
  let inputs : List Input := [.hold .right, .hold .right, .restart]
  obtain ⟨g₀, new⟩ : ∃ g₀,
      Game.new [doorstep, pond] { Rules.standard with puffleMoveTicks := 1 } 0 = .ok g₀ := ⟨_, rfl⟩
  obtain ⟨g₀', new'⟩ : ∃ g₀',
      Game.new [doorstep, pond] { Rules.standard with puffleMoveTicks := 4 } 0 = .ok g₀' := ⟨_, rfl⟩
  let r := inputs.foldl (Run.move 1) ((Run.start g₀).act (.start 1))
  let r' := inputs.foldl (Run.move 4) ((Run.start g₀').act (.start 1))
  have played : r.game.ticks = 3 ∧ r'.game.ticks = 9 ∧ r.game.levelNumber = 2 ∧
      r.game.timesFailed = 2 := by
    cases new
    cases new'
    decide +kernel
  obtain ⟨ticks, ticks', number, failed⟩ := played
  have blockless : ∀ l ∈ [doorstep, pond], l.blocks = [] := by simp [doorstep, pond]
  obtain ⟨_, rest, told, same⟩ := same_play_at_any_pace new new' doorstep_and_pond_accepted
    blockless (Nat.le_refl 1) (Nat.le_refl 4) 1 inputs
  refine ⟨g₀, g₀', r, r', new, new', rfl, rfl, ticks, ticks', number, failed, rest, told, ?_, ?_⟩
  · rw [same]
    exact number
  · rw [same]
    exact failed

end IceMaze
