import IceMaze.Proofs.Play.BlockNumbers
import IceMaze.Proofs.Play.Events
import Mathlib.Data.List.DropRight

/-!
The operations that a step is made of.

`Operation` lists them with what they tell and what holds when they are carried out, and `Plays` is
any number of them in a row. A step plays, or it is a `Turn` (`Step.plays`). So what every operation
and every turn keeps holds in every run (`Run.Reachable.by_turns`).

A lock takes a key when the puffle lands on it, some time after the move was allowed. That the key
is still there is `Keyed`.
-/

namespace IceMaze

/-- Looking back over a list, all of `bs` is taken before `as` is looked at. -/
theorem rtakeWhile_append {α : Type} {p : α → Bool} (as : List α) {bs : List α}
    (h : ∀ b ∈ bs, p b = true) : (as ++ bs).rtakeWhile p = as.rtakeWhile p ++ bs := by
  have h' : ∀ b ∈ bs.reverse, p b = true := fun b here => h b (List.mem_reverse.1 here)
  rw [List.rtakeWhile, List.reverse_append, List.takeWhile_append_of_pos h', List.reverse_append,
    List.reverse_reverse, List.rtakeWhile]

namespace Event

/-- The event is about the tiles, what lies on them, or a body. -/
def isOfPlay : Event → Bool
  | .tileChanged .. | .tileMelted _ | .keyCollected _ | .keyUsed _ | .bagCollected _
  | .teleported .. | .blockPushed .. | .blockTeleported .. | .secretRevealed _ => true
  | _ => false

/-- The puffle is at the other end of a teleporter. -/
def isTeleport : Event → Bool
  | .teleported .. => true
  | _ => false

/-- A level is drawn afresh. -/
def opensLevel : Event → Bool
  | .levelStarted .. | .levelReset .. => true
  | _ => false

/-- The events since the level was last drawn. -/
def sinceOpening (log : List Event) : List Event := log.rtakeWhile fun e => !e.opensLevel

theorem sinceOpening_append (log : List Event) {es : List Event}
    (h : ∀ e ∈ es, e.opensLevel = false) :
    sinceOpening (log ++ es) = sinceOpening log ++ es :=
  rtakeWhile_append log fun e here => by rw [h e here, Bool.not_false]

theorem sinceOpening_concat {log : List Event} {e : Event} (h : e.opensLevel = true) :
    sinceOpening (log ++ [e]) = [] := by
  simp [sinceOpening, h]

theorem opensLevel_of_isOfPlay {e : Event} (play : e.isOfPlay = true) :
    e.opensLevel = false := by
  cases e with
  | levelStarted | levelReset => cases play
  | _ => rfl

end Event

namespace Game

open Board

section
variable {g g' : Game}

/-! ## Keys -/

/-- Whoever moves onto a lock has a key. -/
def Keyed (g : Game) : Prop :=
  ∀ m, g.puffle.motion = some m → g.board.kind? m.target = some .lock → 0 < g.puffle.keys

theorem Keyed.of_rests (rests : g.puffle.motion = none) : g.Keyed := by
  intro m moves
  cases rests.symm.trans moves

theorem Keyed.congr (h : g.Keyed) (puffle : g'.puffle = g.puffle)
    (kind : ∀ c, g'.board.kind? c = g.board.kind? c) : g'.Keyed := by
  intro m moves lock
  rw [puffle] at moves ⊢
  rw [kind] at lock
  exact h m moves lock

theorem Opened.keyed {l : Level} (h : g.Opened l) : g.Keyed := .of_rests (by rw [h.puffle]; rfl)

theorem Keyed.resetLevel (h : g.Keyed) : g.resetLevel.Keyed := by
  obtain same | ⟨l, opened⟩ := g.resetLevel_cases
  · rwa [same]
  · exact opened.keyed

theorem keyed_startMove {d : Direction} (free : g.canMove d = true) : (g.startMove d).Keyed := by
  intro m started lock
  rw [puffle_startMove] at started ⊢
  cases started
  obtain ⟨k, kind, _, unlocked⟩ := openAhead_of_canMove free
  have lock : g.board.kind? (g.puffle.pos.step d) = some .lock :=
    (kind?_startMove_ahead d).symm.trans lock
  cases kind.symm.trans lock
  exact Nat.pos_of_ne_zero fun none => unlocked ⟨rfl, none⟩

theorem Step.keyed (step : Step g g') (h : g.Keyed) : g'.Keyed := by
  cases step with
  | countTick | dropMomentum | glide | forgetStuckCheck => exact h
  | startMove d _ _ free => exact keyed_startMove free
  | slide d => exact h.congr (by simp) (kind?_pushBlock d)
  | land => exact h.congr (by simp) kind?_landBlock
  | @walk m _ moves =>
    intro n walks lock
    cases walks
    rw [target_step] at lock
    exact h m moves lock
  | leaveBoard => exact .of_rests rfl
  | reachGoal | enterLock | enterTeleporter | enterPlain => exact .of_rests (by simp)
  | fail => exact Keyed.resetLevel (h.congr rfl fun _ => rfl)
  | reset => exact h.resetLevel
  | load | next => exact (opened_load _ _).keyed
  | conclude => exact h.congr rfl fun _ => rfl

end

/-! ## Operations -/

/-- One thing that is done to a game within a level, with the events that tell of it. -/
inductive Operation (g : Game) : List Event → Game → Prop where
  /-- Nothing is told of what touches neither the board nor a counter of the level. -/
  | still {g'} (setting : g'.setting = g.setting) (board : g'.board = g.board)
      (melted : g'.melted = g.melted) (points : g'.pointsInLevel = g.pointsInLevel)
      (keys : g'.puffle.keys = g.puffle.keys) : Operation g [] g'
  | leave (c) : Operation g (g.leaveEvents c) (g.leave c)
  | pushBlock (i d) : Operation g (g.pushEvents i d) (g.pushBlock i d)
  | pressButton : Operation g g.pressEvents g.pressButton
  | landBlock (i b m) : Operation g (g.landEvents i b m) (g.landBlock i b m)
  | takeBag (c) : Operation g (g.bagEvents c) (g.takeBag c)
  | takeKey (c) : Operation g (g.keyEvents c) (g.takeKey c)
  | openLock {c} (lock : g.board.kind? c = some .lock) (key : 0 < g.puffle.keys) :
      Operation g [.tileChanged c .ice, .keyUsed c] (g.openLock c)
  | teleport {c d} (fresh : g.board.isPlaid c = false) (linked : g.board.link? c = some d) :
      Operation g [.teleported c d] (g.teleport c d)

section
variable {g g' : Game}

theorem Operation.setting {es : List Event} (op : Operation g es g') :
    g'.setting = g.setting := by
  cases op with
  | still setting => exact setting
  | _ => simp

/-- Only events of play are told within a level. -/
theorem Operation.told {es : List Event} (op : Operation g es g') :
    ∀ e ∈ es, e.isOfPlay = true := by
  cases op with
  | still | openLock | teleport => simp [Event.isOfPlay]
  | leave c =>
    unfold leaveEvents
    split <;> simp [Event.isOfPlay]
  | pushBlock i d =>
    unfold pushEvents
    split <;> simp [Event.isOfPlay]
  | pressButton => exact g.forall_mem_pressEvents (fun _ _ => rfl) fun _ => rfl
  | landBlock i b m =>
    unfold landEvents
    split <;> simp [Event.isOfPlay]
  | takeBag c =>
    unfold bagEvents
    split <;> simp [Event.isOfPlay]
  | takeKey c =>
    unfold keyEvents
    split <;> simp [Event.isOfPlay]

end

/-- Operations, one after the other. -/
inductive Plays : Game → List Event → Game → Prop where
  | refl (g : Game) : Plays g [] g
  | snoc {g h k : Game} {es fs : List Event} (first : Plays g es h) (last : Operation h fs k) :
      Plays g (es ++ fs) k

variable {g g' : Game}

namespace Plays

theorem of_operation {es : List Event} (op : Operation g es g') : Plays g es g' :=
  .snoc (.refl g) op

theorem trans {h : Game} {es fs : List Event} (first : Plays g es h) (second : Plays h fs g') :
    Plays g (es ++ fs) g' := by
  induction second with
  | refl => rwa [List.append_nil]
  | snoc _ last ih =>
    rw [← List.append_assoc]
    exact ih.snoc last

/-- What every operation keeps, play keeps. -/
theorem keeps {P : List Event → Game → Prop}
    (keeps : ∀ log es g g', Operation g es g' → P log g → P (log ++ es) g') {es : List Event}
    (plays : Plays g es g') (log : List Event) (h : P log g) : P (log ++ es) g' := by
  induction plays with
  | refl => rwa [List.append_nil]
  | snoc _ last ih =>
    rw [← List.append_assoc]
    exact keeps _ _ _ _ last ih

theorem setting {es : List Event} (plays : Plays g es g') : g'.setting = g.setting := by
  induction plays with
  | refl => rfl
  | snoc _ last ih => exact last.setting.trans ih

theorem told {es : List Event} (plays : Plays g es g') : ∀ e ∈ es, e.isOfPlay = true := by
  induction plays with
  | refl => simp
  | snoc _ last ih => exact List.forall_mem_append.2 ⟨ih, last.told⟩

/-- An operation that is not told ends the play. -/
theorem quietly {h : Game} {es : List Event} (plays : Plays g es h) (last : Operation h [] g') :
    Plays g es g' := by
  simpa using plays.snoc last

variable (g)

theorem pushAhead (c : Coord) (d : Direction) :
    Plays g (g.aheadEvents c d) (g.pushAhead c d) := by
  unfold aheadEvents Game.pushAhead
  cases g.blockAt c with
  | none => exact .refl g
  | some i => exact .of_operation (.pushBlock i d)

theorem pressAt (c : Coord) :
    Plays g (if g.board.kind? c = some .button then g.pressEvents else []) (g.pressAt c) := by
  unfold Game.pressAt
  split
  · exact .of_operation .pressButton
  · exact .refl g

theorem startMove (d : Direction) : Plays g (g.moveEvents d) (g.startMove d) := by
  have left : Plays g _ _ := of_operation (.leave g.puffle.pos)
  have pushed := left.trans (pushAhead _ (g.puffle.pos.step d) d)
  have pressed := pushed.trans (pressAt _ (g.puffle.pos.step d))
  rw [startMove_eq]
  apply pressed.quietly
  exact .still rfl rfl rfl rfl rfl

/-- The puffle reaches a cell, and the bag on it is taken. -/
theorem reach (c : Coord) : Plays g ((g.arrive c).bagEvents c) ((g.arrive c).takeBag c) := by
  have arrived : Operation g [] (g.arrive c) := .still rfl rfl rfl rfl rfl
  exact (of_operation arrived).trans (of_operation (.takeBag c))

/-- The key on a cell is taken, and the puffle may turn out to be stuck. -/
theorem search (c : Coord) : Plays g (g.keyEvents c) (g.takeKey c).awaitStuckCheck := by
  apply (of_operation (.takeKey c)).quietly
  exact .still rfl rfl rfl rfl rfl

end Plays

/-- A level is loaded, reset or ended. -/
inductive Turn (g : Game) : Game → Prop where
  | fail (playing : g.phase = .playing) :
      Turn g ((g.note (.stuck g.puffle.pos g.levelNumber)).emit (.stuck g.puffle.pos)).resetLevel
  | reset (playing : g.phase = .playing) : Turn g g.resetLevel
  | load {n l} (found : g.level? n = some l) : Turn g (g.load n l)
  | next {l} (found : g.level? (g.levelNumber + 1) = some l) :
      Turn g (g.complete.load (g.levelNumber + 1) l)
  | conclude (last : g.level? (g.levelNumber + 1) = none) : Turn g g.complete.finish

theorem keys_reach (g : Game) (c : Coord) :
    ((g.arrive c).takeBag c).puffle.keys = g.puffle.keys := by
  rw [puffle_takeBag]
  rfl

/-- Play that is told in the events of the game. -/
def PlaysOn (g g' : Game) : Prop := ∃ es, g'.events = g.events ++ es ∧ Plays g es g'

namespace PlaysOn

theorem of_operation {es : List Event} (told : g'.events = g.events ++ es)
    (op : Operation g es g') : g.PlaysOn g' := ⟨es, told, .of_operation op⟩

theorem refl (g : Game) : g.PlaysOn g := ⟨[], (List.append_nil _).symm, .refl g⟩

theorem trans {h : Game} (first : g.PlaysOn h) (second : h.PlaysOn g') : g.PlaysOn g' := by
  obtain ⟨es, told, plays⟩ := first
  obtain ⟨fs, told', plays'⟩ := second
  exact ⟨es ++ fs, by rw [told', told, List.append_assoc], plays.trans plays'⟩

theorem setting (h : g.PlaysOn g') : g'.setting = g.setting := h.choose_spec.2.setting

/-- What touches neither the board nor a counter of the level is not told. -/
theorem still (events : g'.events = g.events) (setting : g'.setting = g.setting)
    (board : g'.board = g.board) (melted : g'.melted = g.melted)
    (points : g'.pointsInLevel = g.pointsInLevel) (keys : g'.puffle.keys = g.puffle.keys) :
    g.PlaysOn g' :=
  of_operation (by rw [events, List.append_nil]) (.still setting board melted points keys)

theorem startMove (g : Game) (d : Direction) : g.PlaysOn (g.startMove d) :=
  ⟨_, events_startMove g d, .startMove g d⟩

theorem pushBlock (g : Game) (i : Nat) (d : Direction) : g.PlaysOn (g.pushBlock i d) :=
  of_operation (events_pushBlock g i d) (.pushBlock i d)

theorem landBlock (g : Game) (i : Nat) (b : Block) (m : Motion) : g.PlaysOn (g.landBlock i b m) :=
  of_operation (events_landBlock g i b m) (.landBlock i b m)

theorem reach (g : Game) (c : Coord) : g.PlaysOn ((g.arrive c).takeBag c) :=
  ⟨_, events_takeBag (g.arrive c) c, .reach g c⟩

theorem takeKey (g : Game) (c : Coord) : g.PlaysOn (g.takeKey c) :=
  of_operation (events_takeKey g c) (.takeKey c)

theorem search (g : Game) (c : Coord) : g.PlaysOn (g.takeKey c).awaitStuckCheck :=
  ⟨_, events_takeKey g c, .search g c⟩

theorem enterLock {c : Coord} (lock : g.board.kind? c = some .lock) (key : 0 < g.puffle.keys) :
    g.PlaysOn ((((g.arrive c).takeBag c).openLock c).takeKey c).awaitStuckCheck := by
  have opened : ((g.arrive c).takeBag c).PlaysOn (((g.arrive c).takeBag c).openLock c) := by
    apply of_operation (events_openLock _ c)
    apply Operation.openLock
    · exact ((SameGround.reach c).kind? c).trans lock
    · rwa [keys_reach]
  exact (reach g c).trans (opened.trans (search _ c))

theorem enterTeleporter {c d : Coord} {t : Tile} (here : g.board.get? c = some t)
    (fresh : t.plaid = false) (linked : t.link = some d) :
    g.PlaysOn ((((g.arrive c).takeBag c).teleport c d).takeKey c) := by
  have link : g.board.link? c = some d := by
    rw [Board.link?, here, Option.bind_some, linked]
  have plaid : (g.arrive c).board.isPlaid c = false := by
    have same : (g.arrive c).board = g.board := rfl
    rw [same, Board.isPlaid, here, Option.map_some, fresh, Option.getD_some]
  have left : ((g.arrive c).takeBag c).PlaysOn (((g.arrive c).takeBag c).teleport c d) := by
    apply of_operation (events_teleport _ c d)
    apply Operation.teleport
    · exact (isPlaid_takeBag c c).trans plaid
    · exact ((SameGround.reach c).link? c).trans link
  exact (reach g c).trans (left.trans (takeKey _ c))

theorem enterPlain (g : Game) (c : Coord) :
    g.PlaysOn (((g.arrive c).takeBag c).takeKey c).awaitStuckCheck :=
  (reach g c).trans (search _ c)

end PlaysOn

theorem Keyed.key_of_lock {m : Motion} {t : Tile} (keyed : g.Keyed)
    (moves : g.puffle.motion = some m) (here : g.board.get? m.target = some t)
    (lock : t.kind = .lock) : g.board.kind? m.target = some .lock ∧ 0 < g.puffle.keys := by
  have kind : g.board.kind? m.target = some .lock := by
    rw [Board.kind?, here, Option.map_some, lock]
  exact ⟨kind, keyed m moves kind⟩

/-- A step plays on, or it is a turn. -/
theorem Step.plays (step : Step g g') (keyed : g.Keyed) : g.PlaysOn g' ∨ Turn g g' := by
  cases step with
  | countTick | walk | leaveBoard | forgetStuckCheck | dropMomentum | glide =>
    exact .inl (.still rfl rfl rfl rfl rfl rfl)
  | startMove d => exact .inl (.startMove g d)
  | @slide i _ d => exact .inl (.pushBlock g i d)
  | @land i b m => exact .inl (.landBlock g i b m.step)
  | @reachGoal m => exact .inl (.reach g m.target)
  | enterLock _ moves _ here lock =>
    obtain ⟨kind, key⟩ := keyed.key_of_lock moves here lock
    exact .inl (.enterLock kind key)
  | enterTeleporter _ _ _ here _ fresh linked => exact .inl (.enterTeleporter here fresh linked)
  | @enterPlain m => exact .inl (.enterPlain g m.target)
  | fail playing => exact .inr (.fail playing)
  | reset playing => exact .inr (.reset playing)
  | load found => exact .inr (.load found)
  | next found => exact .inr (.next found)
  | conclude last => exact .inr (.conclude last)

/-- The puffle's part of a tick plays on unless a goal is reached. -/
theorem Advance.plays (advance : Advance g g') (keyed : g.Keyed)
    (short : ∀ m, g.puffle.motion = some m → m.step.isDone = true →
      g.board.kind? m.target ≠ some .goal) : g.PlaysOn g' := by
  cases advance with
  | rest => exact .refl g
  | walk | leaveBoard => exact .still rfl rfl rfl rfl rfl rfl
  | @reachGoal m _ moves done here goal =>
    have kind : g.board.kind? m.target = some .goal := by
      rw [Board.kind?, here, Option.map_some, goal]
    exact absurd kind (short m moves done)
  | enterLock moves _ here lock =>
    obtain ⟨kind, key⟩ := keyed.key_of_lock moves here lock
    exact .enterLock kind key
  | enterTeleporter _ _ here _ fresh linked => exact .enterTeleporter here fresh linked
  | @enterPlain m => exact .enterPlain g m.target

end Game

/-! ## Runs -/

section
variable {levels : List Level} {rules : Rules} {seed : UInt64} {g₀ : Game} {r : Run}

theorem Run.Reachable.keyed (new : Game.new levels rules seed = .ok g₀) (h : Reachable g₀ r) :
    r.game.Keyed := by
  have unstarted := Game.unstarted_of_new new
  have rests : g₀.puffle.motion = none := by
    rw [Game.puffle_of_new new]
    rfl
  exact h.game_invariant unstarted.silent (Game.Keyed.of_rests rests) (fun _ => id)
    fun _ _ step => step.keyed

/-- What holds in a new game, and is kept by every operation and every turn, holds in every run. -/
theorem Run.Reachable.by_turns {P : List Event → Game → Prop}
    (new : Game.new levels rules seed = .ok g₀) (h : Reachable g₀ r) (start : P [] g₀)
    (clear : ∀ log g, P log g → P log { g with events := [] })
    (operation : ∀ log es g g', Game.Operation g es g' → P log g → P (log ++ es) g')
    (turn : ∀ past g g', Game.Turn g g' → g.setting.Loaded levels → P (past ++ g.events) g →
      P (past ++ g'.events) g') :
    P r.events r.game := by
  have unstarted := Game.unstarted_of_new new
  suffices r.game.setting.Loaded levels ∧ r.game.Keyed ∧ P r.events r.game from this.2.2
  apply h.invariant (P := fun log g => g.setting.Loaded levels ∧ g.Keyed ∧ P log g)
    unstarted.silent
  · exact ⟨unstarted.loaded, Run.Reachable.start.keyed new, start⟩
  · rintro log g ⟨loaded, keyed, holds⟩
    exact ⟨loaded, keyed, clear log g holds⟩
  · rintro past g g' step ⟨loaded, keyed, holds⟩
    refine ⟨step.loaded loaded, step.keyed keyed, ?_⟩
    obtain ⟨es, events, played⟩ | turned := step.plays keyed
    · rw [events, ← List.append_assoc]
      exact played.keeps operation _ holds
    · exact turn past g g' turned loaded holds

end

end IceMaze
