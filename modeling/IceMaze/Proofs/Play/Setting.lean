import IceMaze.Game.Tick

/-!
What play within a level leaves alone.

`Setting` collects the fields of a game that only loading, resetting and completing a level change.
Every other operation keeps them, which is one lemma for each operation.
-/

namespace IceMaze

/-- The fields of a game that stay as they are while a level is played. -/
structure Setting where
  levels : List Level
  rules : Rules
  random : Random
  phase : Phase
  levelNumber : Nat
  layout : Option Level
  altApplied : Bool
  pointsAtStart : Nat
  total : Nat
  timesFailed : UInt32
  solvedPrevious : Bool

namespace Game

def setting (g : Game) : Setting where
  levels := g.levels
  rules := g.rules
  random := g.random
  phase := g.phase
  levelNumber := g.levelNumber
  layout := g.layout
  altApplied := g.altApplied
  pointsAtStart := g.pointsAtStart
  total := g.total
  timesFailed := g.timesFailed
  solvedPrevious := g.solvedPrevious

section
variable {g g' : Game}

theorem rules_of_setting (h : g'.setting = g.setting) : g'.rules = g.rules :=
  congrArg Setting.rules h

theorem random_of_setting (h : g'.setting = g.setting) : g'.random = g.random :=
  congrArg Setting.random h

theorem phase_of_setting (h : g'.setting = g.setting) : g'.phase = g.phase :=
  congrArg Setting.phase h

theorem levelNumber_of_setting (h : g'.setting = g.setting) : g'.levelNumber = g.levelNumber :=
  congrArg Setting.levelNumber h

theorem layout_of_setting (h : g'.setting = g.setting) : g'.layout = g.layout :=
  congrArg Setting.layout h

theorem timesFailed_of_setting (h : g'.setting = g.setting) : g'.timesFailed = g.timesFailed :=
  congrArg Setting.timesFailed h

theorem solvedPrevious_of_setting (h : g'.setting = g.setting) :
    g'.solvedPrevious = g.solvedPrevious :=
  congrArg Setting.solvedPrevious h

end

variable (g : Game)

theorem setting_rules : g.setting.rules = g.rules := rfl

theorem setting_random : g.setting.random = g.random := rfl

theorem setting_phase : g.setting.phase = g.phase := rfl

theorem setting_levelNumber : g.setting.levelNumber = g.levelNumber := rfl

theorem setting_layout : g.setting.layout = g.layout := rfl

theorem setting_altApplied : g.setting.altApplied = g.altApplied := rfl

theorem setting_pointsAtStart : g.setting.pointsAtStart = g.pointsAtStart := rfl

theorem setting_timesFailed : g.setting.timesFailed = g.timesFailed := rfl

theorem setting_solvedPrevious : g.setting.solvedPrevious = g.solvedPrevious := rfl

@[simp] theorem setting_emit (e : Event) : (g.emit e).setting = g.setting := rfl

@[simp] theorem setting_note (n : Note) : (g.note n).setting = g.setting := rfl

@[simp] theorem setting_modifyTile (c : Coord) (f : Tile → Tile) :
    (g.modifyTile c f).setting = g.setting := rfl

@[simp] theorem setting_changeTile (c : Coord) (k : TileKind) :
    (g.changeTile c k).setting = g.setting := rfl

@[simp] theorem setting_setBlock (i : Nat) (b : Block) :
    (g.setBlock i b).setting = g.setting := rfl

@[simp] theorem setting_withPuffle (p : Puffle) : { g with puffle := p }.setting = g.setting := rfl

@[simp] theorem setting_leave (c : Coord) : (g.leave c).setting = g.setting := by
  unfold leave
  split <;> rfl

@[simp] theorem setting_pushBlock (i : Nat) (d : Direction) :
    (g.pushBlock i d).setting = g.setting := by
  unfold pushBlock
  split <;> rfl

/-- Events that are emitted one after the other are only added to the others. -/
theorem emitAll_eq {α : Type} (f : α → Event) (as : List α) (g : Game) :
    as.foldl (fun g a => g.emit (f a)) g = { g with events := g.events ++ as.map f } := by
  induction as generalizing g with
  | nil => simp
  | cons a as ih =>
    rw [List.foldl_cons, ih]
    simp [emit]

/-- Nothing but the board and the reports is touched. -/
theorem pressButton_eq :
    ∃ board events notes,
      g.pressButton = { g with board := board, events := events, notes := notes } := by
  unfold pressButton
  split
  · exact ⟨g.board, g.events, g.notes, rfl⟩
  · simp only [emitAll_eq]
    exact ⟨_, _, _, rfl⟩

@[simp] theorem setting_pressButton : g.pressButton.setting = g.setting := by
  obtain ⟨board, events, notes, pressed⟩ := g.pressButton_eq
  rw [pressed]
  rfl

/-- A block in the way is pushed ahead. -/
def pushAhead (c : Coord) (d : Direction) : Game :=
  match g.blockAt c with
  | some i => g.pushBlock i d
  | none => g

def pressAt (c : Coord) : Game := if g.board.kind? c = some .button then g.pressButton else g

/-- The puffle sets off. -/
def depart (source target : Coord) (d : Direction) : Game :=
  { g with
    puffle := { g.puffle with motion := some (.start source target d g.rules.puffleMoveTicks) }
    stuckCheck := false }

theorem startMove_eq (d : Direction) :
    g.startMove d = (((g.leave g.puffle.pos).pushAhead (g.puffle.pos.step d) d).pressAt
      (g.puffle.pos.step d)).depart g.puffle.pos (g.puffle.pos.step d) d := rfl

@[simp] theorem setting_pushAhead (c : Coord) (d : Direction) :
    (g.pushAhead c d).setting = g.setting := by
  unfold pushAhead
  split <;> simp

@[simp] theorem setting_pressAt (c : Coord) : (g.pressAt c).setting = g.setting := by
  unfold pressAt
  split <;> simp

@[simp] theorem setting_depart (c e : Coord) (d : Direction) :
    (g.depart c e d).setting = g.setting := rfl

@[simp] theorem setting_startMove (d : Direction) : (g.startMove d).setting = g.setting := by
  simp [startMove_eq]

@[simp] theorem setting_restBlock (i : Nat) (b : Block) (c : Coord) (m : Option Direction) :
    (g.restBlock i b c m).setting = g.setting := rfl

@[simp] theorem setting_landBlock (i : Nat) (b : Block) (m : Motion) :
    (g.landBlock i b m).setting = g.setting := by
  simp only [landBlock]
  split <;> simp

@[simp] theorem setting_takeBag (c : Coord) : (g.takeBag c).setting = g.setting := by
  unfold takeBag
  split
  · simp only [setting_emit]
    rfl
  · rfl

@[simp] theorem setting_takeKey (c : Coord) : (g.takeKey c).setting = g.setting := by
  unfold takeKey
  split
  · simp only [setting_emit, setting_withPuffle, setting_modifyTile]
  · rfl

@[simp] theorem setting_openLock (c : Coord) : (g.openLock c).setting = g.setting := by
  simp only [openLock, setting_emit, setting_withPuffle, setting_changeTile]

@[simp] theorem setting_teleport (c d : Coord) : (g.teleport c d).setting = g.setting := by
  simp only [teleport, setting_emit, setting_note, setting_withPuffle, setting_modifyTile]

@[simp] theorem setting_awaitStuckCheck : g.awaitStuckCheck.setting = g.setting := rfl

/-! ## Lifecycle calls -/

@[simp] theorem setting_redraw : g.redraw.setting = g.setting := by
  unfold redraw
  split
  · rfl
  · dsimp only
    split <;> rfl

/-- Without patches there is nothing to choose. -/
theorem flipCoin_of_plain {l : Level} (plain : l.patches = []) :
    g.flipCoin l = (false, g.random) := by
  rw [flipCoin, if_pos plain]

theorem setting_load (n : Nat) (l : Level) :
    (g.load n l).setting =
      { g.setting with
        random := (g.flipCoin l).2
        phase := .playing
        levelNumber := n
        layout := some (l.variant (g.flipCoin l).1)
        altApplied := (g.flipCoin l).1
        total := (l.variant (g.flipCoin l).1).totalTileCount
        timesFailed := 0 } := by
  simp only [load, setting_emit, setting_note, setting_redraw]
  rfl

theorem rules_load (n : Nat) (l : Level) : (g.load n l).rules = g.rules := by
  rw [← setting_rules, setting_load, setting_rules]

theorem random_load (n : Nat) (l : Level) : (g.load n l).random = (g.flipCoin l).2 := by
  rw [← setting_random, setting_load]

theorem phase_load (n : Nat) (l : Level) : (g.load n l).phase = .playing := by
  rw [← setting_phase, setting_load]

theorem levelNumber_load (n : Nat) (l : Level) : (g.load n l).levelNumber = n := by
  rw [← setting_levelNumber, setting_load]

theorem layout_load (n : Nat) (l : Level) :
    (g.load n l).layout = some (l.variant (g.flipCoin l).1) := by
  rw [← setting_layout, setting_load]

theorem altApplied_load (n : Nat) (l : Level) :
    (g.load n l).altApplied = (g.flipCoin l).1 := by
  rw [← setting_altApplied, setting_load]

theorem pointsAtStart_load (n : Nat) (l : Level) :
    (g.load n l).pointsAtStart = g.pointsAtStart := by
  rw [← setting_pointsAtStart, setting_load, setting_pointsAtStart]

theorem timesFailed_load (n : Nat) (l : Level) : (g.load n l).timesFailed = 0 := by
  rw [← setting_timesFailed, setting_load]

theorem solvedPrevious_load (n : Nat) (l : Level) :
    (g.load n l).solvedPrevious = g.solvedPrevious := by
  rw [← setting_solvedPrevious, setting_load, setting_solvedPrevious]

theorem setting_resetLevel :
    g.resetLevel.setting =
      if g.phase ≠ .playing ∨ g.layout.isNone then g.setting
      else { g.setting with timesFailed := g.timesFailed + 1 } := by
  unfold resetLevel
  split
  · rfl
  · simp only [setting_emit, setting_note, setting_redraw]
    rfl

theorem setting_resetLevel_of_playing {l : Level} (playing : g.phase = .playing)
    (layout : g.layout = some l) :
    g.resetLevel.setting = { g.setting with timesFailed := g.timesFailed + 1 } := by
  rw [setting_resetLevel, if_neg (by simp [playing, layout])]

theorem phase_resetLevel : g.resetLevel.phase = g.phase := by
  have phase := congrArg Setting.phase g.setting_resetLevel
  split at phase <;> exact phase

theorem layout_resetLevel : g.resetLevel.layout = g.layout := by
  have layout := congrArg Setting.layout g.setting_resetLevel
  split at layout <;> exact layout

end Game
end IceMaze
