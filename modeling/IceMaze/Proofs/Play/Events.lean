import IceMaze.Proofs.Play.Step

/-!
The events that each operation adds.

Operations only add at the end: `events_prefix` says so of every step.
-/

namespace IceMaze.Game

variable (g : Game)

@[simp] theorem events_emit (e : Event) : (g.emit e).events = g.events ++ [e] := rfl

@[simp] theorem events_arrive (c : Coord) : (g.arrive c).events = g.events := rfl

@[simp] theorem events_awaitStuckCheck : g.awaitStuckCheck.events = g.events := rfl

/-- What is told when the puffle leaves a cell. -/
def leaveEvents (c : Coord) : List Event :=
  match (g.board.kind? c).bind melt? with
  | none => []
  | some k => [.tileChanged c k, .tileMelted c]

theorem events_leave (c : Coord) : (g.leave c).events = g.events ++ g.leaveEvents c := by
  unfold leave leaveEvents
  cases (g.board.kind? c).bind melt? with
  | none => simp
  | some k => simp [changeTile]

/-- What is told when a block is pushed. -/
def pushEvents (i : Nat) (d : Direction) : List Event :=
  match g.blocks[i]? with
  | none => []
  | some b => [.blockPushed i b.pos d]

theorem events_pushBlock (i : Nat) (d : Direction) :
    (g.pushBlock i d).events = g.events ++ g.pushEvents i d := by
  unfold pushBlock pushEvents
  cases g.blocks[i]? with
  | none => simp
  | some b => rfl

/-- What is told when the button is pressed. -/
def pressEvents : List Event :=
  match g.board.secrets with
  | [] => []
  | changes => changes.map (fun p => .tileChanged p.1 p.2) ++ [.secretRevealed changes.length]

theorem events_pressButton : g.pressButton.events = g.events ++ g.pressEvents := by
  unfold pressButton pressEvents
  cases g.board.secrets with
  | nil => simp
  | cons p changes => simp [emitAll_eq, keepBlocks, note]

theorem forall_mem_pressEvents {p : Event → Prop} (changed : ∀ c k, p (.tileChanged c k))
    (revealed : ∀ n, p (.secretRevealed n)) : ∀ e ∈ g.pressEvents, p e := by
  unfold pressEvents
  split
  · simp
  · intro e told
    simp only [List.mem_append, List.mem_map, List.mem_singleton] at told
    obtain ⟨_, _, rfl⟩ | rfl := told
    · exact changed _ _
    · exact revealed _

def aheadEvents (c : Coord) (d : Direction) : List Event :=
  match g.blockAt c with
  | none => []
  | some i => g.pushEvents i d

theorem events_pushAhead (c : Coord) (d : Direction) :
    (g.pushAhead c d).events = g.events ++ g.aheadEvents c d := by
  unfold pushAhead aheadEvents
  cases g.blockAt c with
  | none => simp
  | some i => exact events_pushBlock g i d

theorem events_pressAt (c : Coord) :
    (g.pressAt c).events =
      g.events ++ if g.board.kind? c = some .button then g.pressEvents else [] := by
  unfold pressAt
  split
  · exact events_pressButton g
  · simp

/-- What is told when a move starts. -/
def moveEvents (d : Direction) : List Event :=
  let target := g.puffle.pos.step d
  let left := g.leave g.puffle.pos
  let pushed := left.pushAhead target d
  g.leaveEvents g.puffle.pos ++ left.aheadEvents target d ++
    if pushed.board.kind? target = some .button then pushed.pressEvents else []

theorem events_startMove (d : Direction) :
    (g.startMove d).events = g.events ++ g.moveEvents d := by
  simp only [startMove_eq, depart, events_pressAt, events_pushAhead, events_leave, moveEvents,
    List.append_assoc]

/-- What is told when a block ends its move. -/
def landEvents (i : Nat) (b : Block) (m : Motion) : List Event :=
  match (g.setBlock i { b with motion := none }).blockExit? m.target with
  | some partner => [.blockTeleported i m.target partner]
  | none => []

theorem events_landBlock (i : Nat) (b : Block) (m : Motion) :
    (g.landBlock i b m).events = g.events ++ g.landEvents i b m := by
  simp only [landBlock, landEvents]
  cases (g.setBlock i { b with motion := none }).blockExit? m.target with
  | none => simp [restBlock, modifyTile, setBlock]
  | some c => rfl

def bagEvents (c : Coord) : List Event :=
  if ((g.board.get? c).map Tile.bag).getD false then [.bagCollected c] else []

theorem events_takeBag (c : Coord) : (g.takeBag c).events = g.events ++ g.bagEvents c := by
  unfold takeBag bagEvents
  split
  · rfl
  · simp

def keyEvents (c : Coord) : List Event :=
  if ((g.board.get? c).map Tile.key).getD false then [.keyCollected c] else []

theorem events_takeKey (c : Coord) : (g.takeKey c).events = g.events ++ g.keyEvents c := by
  unfold takeKey keyEvents
  split
  · rfl
  · simp

theorem events_openLock (c : Coord) :
    (g.openLock c).events = g.events ++ [.tileChanged c .ice, .keyUsed c] := by
  simp [openLock, changeTile]

theorem events_teleport (c d : Coord) :
    (g.teleport c d).events = g.events ++ [.teleported c d] := rfl

theorem events_redraw : g.redraw.events = g.events := by
  unfold redraw
  split
  · rfl
  · dsimp only
    split <;> rfl

theorem events_load (n : Nat) (l : Level) :
    (g.load n l).events = g.events ++ [.levelStarted n (g.flipCoin l).1] := by
  simp [load, note, events_redraw]

theorem events_complete :
    g.complete.events = g.events ++
      [.levelCompleted g.levelNumber (g.melted = g.total) (g.pointsInLevel + g.bonus)] := rfl

theorem events_finish : g.finish.events = g.events ++ [.allLevelsComplete g.score] := rfl

theorem levelNumber_redraw : g.redraw.levelNumber = g.levelNumber :=
  levelNumber_of_setting g.setting_redraw

theorem timesFailed_redraw : g.redraw.timesFailed = g.timesFailed :=
  timesFailed_of_setting g.setting_redraw

/-- A level in play always has a layout, but a call in another state is told nothing. -/
theorem events_resetLevel :
    g.resetLevel.events = g.events ++
      if g.phase ≠ .playing ∨ g.layout.isNone then []
      else [.levelReset g.levelNumber (g.timesFailed + 1)] := by
  unfold resetLevel
  split
  · simp
  · simp [note, events_redraw, levelNumber_redraw, timesFailed_redraw]

theorem events_resetLevel_of_playing {l : Level} (playing : g.phase = .playing)
    (layout : g.layout = some l) :
    g.resetLevel.events = g.events ++ [.levelReset g.levelNumber (g.timesFailed + 1)] := by
  rw [events_resetLevel, if_neg (by simp [playing, layout])]

theorem events_prefix {g g' : Game} (h : Step g g') : g.events <+: g'.events := by
  cases h with
  | countTick | dropMomentum | glide | walk | leaveBoard | forgetStuckCheck =>
    exact List.prefix_rfl
  | startMove => exact ⟨_, (events_startMove _ _).symm⟩
  | slide => exact ⟨_, (events_pushBlock _ _ _).symm⟩
  | land => exact ⟨_, (events_landBlock _ _ _ _).symm⟩
  | reachGoal => rw [events_takeBag, events_arrive]; exact List.prefix_append _ _
  | enterLock =>
    simp [events_takeKey, events_openLock, events_takeBag]
  | enterTeleporter =>
    simp [events_takeKey, events_teleport, events_takeBag]
  | enterPlain =>
    simp [events_takeKey, events_takeBag]
  | fail =>
    rw [events_resetLevel]
    simp [note]
  | reset => exact ⟨_, (events_resetLevel _).symm⟩
  | load => exact ⟨_, (events_load _ _ _).symm⟩
  | next =>
    rw [events_load, events_complete]
    simp
  | conclude =>
    rw [events_finish, events_complete]
    simp

end IceMaze.Game
