import IceMaze.Proofs.Play.Tick

/-!
What stands beside play.

A `Frame` is the pace of the puffle, the clock, and the events of before. Nothing that is done to a
game looks at them, so it comes to the same in any frame. Only the start of a move notes the pace,
until the puffle arrives (`under_arrive_startMove`); a frame of the same pace is not seen by any
action (`under_act`).
-/

namespace IceMaze

structure Frame where
  /-- The ticks that a move of the puffle takes. -/
  pace : Nat
  time : Nat
  past : List Event

namespace Game

def under (g : Game) (f : Frame) : Game :=
  { g with
    rules := { g.rules with puffleMoveTicks := f.pace }
    ticks := f.time
    events := f.past ++ g.events }

variable (g : Game) (f : Frame)

/-! ## Reports and tiles -/

theorem emit_under (e : Event) : (g.emit e).under f = (g.under f).emit e := by
  simp [emit, under]

@[simp] theorem under_emit (e : Event) : (g.under f).emit e = (g.emit e).under f :=
  (emit_under g f e).symm

@[simp] theorem under_emitAll {α : Type} (e : α → Event) (as : List α) :
    as.foldl (fun g a => g.emit (e a)) (g.under f) =
      (as.foldl (fun g a => g.emit (e a)) g).under f := by
  induction as generalizing g with
  | nil => rfl
  | cons a as ih => rw [List.foldl_cons, under_emit, ih, List.foldl_cons]

@[simp] theorem under_note (n : Note) : (g.under f).note n = (g.note n).under f := rfl

@[simp] theorem under_changeTile (c : Coord) (k : TileKind) :
    (g.under f).changeTile c k = (g.changeTile c k).under f := by
  rw [changeTile, changeTile, emit_under]
  rfl

/-! ## A move starts -/

@[simp] theorem under_leave (c : Coord) : (g.under f).leave c = (g.leave c).under f := by
  have same : (g.under f).board = g.board := rfl
  unfold leave
  rw [same]
  cases (g.board.kind? c).bind melt? with
  | none => rfl
  | some k =>
    simp only [under_changeTile, emit_under]
    rfl

@[simp] theorem under_pushBlock (i : Nat) (d : Direction) :
    (g.under f).pushBlock i d = (g.pushBlock i d).under f := by
  have same : (g.under f).blocks = g.blocks := rfl
  unfold pushBlock
  rw [same]
  cases g.blocks[i]? with
  | none => rfl
  | some b =>
    dsimp only
    rw [emit_under]
    rfl

@[simp] theorem under_pushAhead (c : Coord) (d : Direction) :
    (g.under f).pushAhead c d = (g.pushAhead c d).under f := by
  have same : (g.under f).blockAt c = g.blockAt c := rfl
  unfold pushAhead
  rw [same]
  cases g.blockAt c with
  | none => rfl
  | some i => simp

@[simp] theorem under_pressButton : (g.under f).pressButton = g.pressButton.under f := by
  have same : (g.under f).board = g.board := rfl
  unfold pressButton
  rw [same]
  cases g.board.secrets with
  | nil => rfl
  | cons p changes =>
    have shown : { g.under f with board := g.board.revealSecret } =
        { g with board := g.board.revealSecret }.under f := rfl
    have kept (h : Game) (cells : List Coord) :
        (h.under f).keepBlocks cells = (h.keepBlocks cells).under f := rfl
    simp only [shown, kept, under_emitAll, under_note, under_emit]

@[simp] theorem under_pressAt (c : Coord) : (g.under f).pressAt c = (g.pressAt c).under f := by
  have same : (g.under f).board = g.board := rfl
  unfold pressAt
  rw [same]
  split <;> simp

/-- The pace is forgotten when the puffle arrives. -/
theorem under_arrive_startMove (d : Direction) (c : Coord) :
    ((g.under f).startMove d).arrive c = ((g.startMove d).arrive c).under f := by
  have same : (g.under f).puffle = g.puffle := rfl
  simp only [startMove_eq, same, under_leave, under_pushAhead, under_pressAt]
  rfl

/-- The pace is noted until then. -/
theorem under_startMove (suits : f.pace = g.rules.puffleMoveTicks) (d : Direction) :
    (g.under f).startMove d = (g.startMove d).under f := by
  have same : (g.under f).puffle = g.puffle := rfl
  have before : (((g.leave g.puffle.pos).pushAhead (g.puffle.pos.step d) d).pressAt
      (g.puffle.pos.step d)).setting = g.setting := by
    simp
  simp only [startMove_eq, same, under_leave, under_pushAhead, under_pressAt]
  generalize ((g.leave g.puffle.pos).pushAhead _ d).pressAt _ = h at before
  have rules : h.rules = g.rules := rules_of_setting before
  simp [depart, under, rules, suits]

theorem under_attemptMove (suits : f.pace = g.rules.puffleMoveTicks) (d : Direction) :
    (g.under f).attemptMove d = (g.attemptMove d).map (·.under f) := by
  have free : (g.under f).canMove d = g.canMove d := rfl
  have phase : (g.under f).phase = g.phase := rfl
  have puffle : (g.under f).puffle = g.puffle := rfl
  rw [attemptMove, attemptMove, free, phase, puffle, under_startMove g f suits]
  split <;> rfl

theorem under_steer (suits : f.pace = g.rules.puffleMoveTicks) (input : Input) :
    (g.under f).steer input = (g.steer input).under f := by
  have puffle : (g.under f).puffle = g.puffle := rfl
  have priority : (g.under f).rules.priority = g.rules.priority := rfl
  have started : (fun d => if input.held d then (g.under f).attemptMove d else none) =
      Option.map (·.under f) ∘ fun d => if input.held d then g.attemptMove d else none := by
    funext d
    dsimp only [Function.comp_apply]
    rw [under_attemptMove g f suits]
    split <;> rfl
  unfold steer
  rw [puffle, priority, started, ← List.map_findSome?]
  split
  · rfl
  · cases g.rules.priority.toList.findSome? _ <;> rfl

/-! ## The blocks move -/

@[simp] theorem under_restartBlock (i : Nat) :
    (g.under f).restartBlock i = (g.restartBlock i).under f := by
  have same : (g.under f).blocks = g.blocks := rfl
  unfold restartBlock
  rw [same]
  cases g.blocks[i]? with
  | none => rfl
  | some b =>
    have dropped : (g.under f).setBlock i { b with momentum := none } =
        (g.setBlock i { b with momentum := none }).under f := rfl
    have free (h : Game) (c : Coord) (d : Direction) :
        (h.under f).canPush c d = h.canPush c d := rfl
    dsimp only
    rw [dropped]
    split
    · rfl
    · cases b.momentum with
      | none => rfl
      | some d =>
        simp only [free, under_pushBlock]
        split <;> rfl

@[simp] theorem under_landBlock (i : Nat) (b : Block) (m : Motion) :
    (g.under f).landBlock i b m = (g.landBlock i b m).under f := by
  have placed : (g.under f).setBlock i { b with motion := none } =
      (g.setBlock i { b with motion := none }).under f := rfl
  have exit (h : Game) : (h.under f).blockExit? m.target = h.blockExit? m.target := rfl
  have rests (h : Game) (b : Block) (c : Coord) (d : Option Direction) :
      (h.under f).restBlock i b c d = (h.restBlock i b c d).under f := rfl
  simp only [landBlock, placed, exit]
  cases (g.setBlock i { b with motion := none }).blockExit? m.target with
  | none => rfl
  | some c => simp only [under_note, under_emit, rests]

@[simp] theorem under_stepBlock (i : Nat) :
    (g.under f).stepBlock i = (g.stepBlock i).under f := by
  have same : (g.under f).blocks = g.blocks := rfl
  unfold stepBlock
  rw [same]
  cases g.blocks[i]? with
  | none => rfl
  | some b =>
    dsimp only
    cases b.motion with
    | none => rfl
    | some m =>
      simp only [under_landBlock]
      split <;> rfl

@[simp] theorem under_advanceBlocks : (g.under f).advanceBlocks = g.advanceBlocks.under f := by
  have same : (g.under f).blocks = g.blocks := rfl
  unfold advanceBlocks
  rw [same]
  induction List.range g.blocks.length generalizing g with
  | nil => rfl
  | cons i is ih =>
    have first : (g.under f).advanceBlock i = (g.advanceBlock i).under f := by
      simp [advanceBlock]
    rw [List.foldl_cons, first, ih _ rfl, List.foldl_cons]

/-! ## The puffle arrives -/

@[simp] theorem under_takeBag (c : Coord) : (g.under f).takeBag c = (g.takeBag c).under f := by
  have same : (g.under f).board = g.board := rfl
  unfold takeBag
  rw [same]
  split
  · dsimp only
    rw [emit_under]
    rfl
  · rfl

@[simp] theorem under_takeKey (c : Coord) : (g.under f).takeKey c = (g.takeKey c).under f := by
  have same : (g.under f).board = g.board := rfl
  unfold takeKey
  rw [same]
  split
  · dsimp only
    rw [emit_under]
    rfl
  · rfl

@[simp] theorem under_openLock (c : Coord) :
    (g.under f).openLock c = (g.openLock c).under f := by
  simp only [openLock, under_changeTile, emit_under]
  rfl

@[simp] theorem under_teleport (c d : Coord) :
    (g.under f).teleport c d = (g.teleport c d).under f := by
  simp only [teleport, emit_under]
  rfl

@[simp] theorem under_awaitStuckCheck :
    (g.under f).awaitStuckCheck = g.awaitStuckCheck.under f := rfl

/-! ## Levels -/

@[simp] theorem under_redraw : (g.under f).redraw = g.redraw.under f := by
  have same : (g.under f).layout = g.layout := rfl
  have board : (g.under f).board = g.board := rfl
  unfold redraw
  rw [same, board]
  cases g.layout with
  | none => rfl
  | some l =>
    dsimp only
    split <;> rfl

@[simp] theorem under_load (n : Nat) (l : Level) :
    (g.under f).load n l = (g.load n l).under f := by
  have coin : (g.under f).flipCoin l = g.flipCoin l := rfl
  simp only [load, coin, emit_under, ← under_note, ← under_redraw]
  rfl

@[simp] theorem under_complete : (g.under f).complete = g.complete.under f := by
  simp only [complete, emit_under]
  rfl

@[simp] theorem under_finish : (g.under f).finish = g.finish.under f := by
  simp only [finish, emit_under]
  rfl

@[simp] theorem under_goToNextLevel : (g.under f).goToNextLevel = g.goToNextLevel.under f := by
  have same : (g.complete.under f).level? (g.levelNumber + 1) =
    g.complete.level? (g.levelNumber + 1) := rfl
  have number : g.complete.levelNumber = g.levelNumber := rfl
  have number' : (g.complete.under f).levelNumber = g.levelNumber := rfl
  simp only [goToNextLevel, startLevel, under_complete, number, number', same]
  cases g.complete.level? (g.levelNumber + 1) with
  | none => exact under_finish _ f
  | some l => exact under_load _ f _ l

@[simp] theorem under_resetLevel : (g.under f).resetLevel = g.resetLevel.under f := by
  have failed : { g.under f with timesFailed := (g.under f).timesFailed + 1 } =
      { g with timesFailed := g.timesFailed + 1 }.under f := rfl
  by_cases refused : g.phase ≠ .playing ∨ g.layout.isNone
  · have refused' : (g.under f).phase ≠ .playing ∨ (g.under f).layout.isNone := refused
    rw [resetLevel, resetLevel, if_pos refused, if_pos refused']
  · have refused' : ¬((g.under f).phase ≠ .playing ∨ (g.under f).layout.isNone) := refused
    rw [resetLevel, resetLevel, if_neg refused, if_neg refused', failed, under_redraw, emit_under]
    rfl

@[simp] theorem under_enterTile (c : Coord) :
    (g.under f).enterTile c = (g.enterTile c).under f := by
  have here : { g.under f with puffle := { (g.under f).puffle with pos := c } } =
      { g with puffle := { g.puffle with pos := c } }.under f := rfl
  simp only [enterTile, here]
  generalize { g with puffle := { g.puffle with pos := c } } = h
  have same : (g.under f).board = g.board := rfl
  rw [same]
  cases g.board.get? c with
  | none => rfl
  | some t =>
    have exit : ((h.takeBag c).under f).puffleExit? t = (h.takeBag c).puffleExit? t := rfl
    simp only [under_takeBag, exit]
    split
    · exact under_goToNextLevel _ f
    · simp
    · cases (h.takeBag c).puffleExit? t with
      | none => simp
      | some d => simp
    · simp

@[simp] theorem under_advancePuffle : (g.under f).advancePuffle = g.advancePuffle.under f := by
  have same : (g.under f).puffle = g.puffle := rfl
  unfold advancePuffle
  rw [same]
  cases g.puffle.motion with
  | none => rfl
  | some m =>
    have landed : { g.under f with puffle := { g.puffle with motion := none } } =
        { g with puffle := { g.puffle with motion := none } }.under f := rfl
    dsimp only
    rw [landed, under_enterTile]
    split <;> rfl

@[simp] theorem under_checkStuck : (g.under f).checkStuck = g.checkStuck.under f := by
  have calm : { g.under f with stuckCheck := false } = { g with stuckCheck := false }.under f := rfl
  have stuck (h : Game) : (h.under f).isStuck = h.isStuck := rfl
  have due : ((g.under f).stuckCheck && (g.under f).phase = .playing && (g.under f).isSettled) =
      (g.stuckCheck && g.phase = .playing && g.isSettled) := rfl
  unfold checkStuck
  rw [due]
  split
  · simp only [calm, stuck, under_note, under_emit, under_resetLevel]
    split <;> rfl
  · rfl

end Game

/-! ## Actions -/

/-- What has become of a frame after an action. Only ticks in play count, and all of them drop what
has been told before. -/
def Frame.after (f : Frame) (phase : Phase) : Action → Frame
  | .tick _ => ⟨f.pace, if phase = .playing then f.time + 1 else f.time, []⟩
  | .start _ | .reset | .next | .attempt _ => f

theorem Frame.after_of_not_tick {f : Frame} {phase : Phase} {a : Action}
    (other : ∀ input, a ≠ .tick input) : f.after phase a = f := by
  cases a with
  | tick input => exact absurd rfl (other input)
  | start | reset | next | attempt => rfl

namespace Game

variable (g : Game) (f : Frame)

theorem under_tick (suits : f.pace = g.rules.puffleMoveTicks) (input : Input) :
    (g.under f).tick input = (g.tick input).under (f.after g.phase (.tick input)) := by
  by_cases playing : g.phase = .playing
  · let clock : Frame := ⟨f.pace, f.time + 1, []⟩
    let begun : Game := { g with events := [], ticks := g.ticks + 1 }
    have begins : { g.under f with events := [], ticks := f.time + 1 } = begun.under clock := rfl
    have after : f.after g.phase (.tick input) = clock := by
      rw [Frame.after, if_pos playing]
    rw [after]
    cases asked : input.reset with
    | true =>
      rw [tick_restart (g := g.under f) playing asked, tick_restart playing asked]
      exact under_resetLevel begun clock
    | false =>
      rw [tick_eq (g := g.under f) playing asked, tick_eq playing asked]
      have steered : (begun.under clock).steer input = (begun.steer input).under clock :=
        under_steer begun clock suits input
      have approached : (g.under f).approach input = (g.approach input).under clock := by
        rw [approach, approach, ← under_advanceBlocks, ← steered]
        rfl
      rw [beforeCheck, approached, under_advancePuffle, under_checkStuck, beforeCheck]
  · rw [tick_idle (g := g.under f) playing, tick_idle playing, Frame.after, if_neg playing]
    rfl

theorem under_act (suits : f.pace = g.rules.puffleMoveTicks) (a : Action) :
    (g.under f).act a = (g.act a).under (f.after g.phase a) := by
  cases a with
  | start n =>
    have same : (g.under f).level? n = g.level? n := rfl
    simp only [act, startLevel, same]
    cases g.level? n with
    | none => rfl
    | some l => exact under_load g f n l
  | tick input => exact under_tick g f suits input
  | reset => exact under_resetLevel g f
  | next => exact under_goToNextLevel g f
  | attempt d =>
    simp only [act, under_attemptMove g f suits]
    cases g.attemptMove d <;> rfl

end Game
end IceMaze
