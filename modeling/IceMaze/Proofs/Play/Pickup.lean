import IceMaze.Proofs.Play.Keys

/-!
The key on the cell where the puffle lands.

What happens on the cell before the key is looked for leaves it there (`takeBag`, `teleport`), or
replaces the tile (`openLock`). So the puffle takes the key of every cell where its level goes on,
but a key that lies on a lock is lost when the lock opens (`key_pickup`).
-/

namespace IceMaze

/-- An event that a tick tells before the puffle's move can end. -/
def Event.isUnderWay : Event → Bool
  | .tileChanged .. | .tileMelted _ | .blockPushed .. | .secretRevealed _ | .blockTeleported .. =>
    true
  | _ => false

namespace Game

open Board

variable {g g' : Game} {c : Coord} {input : Input}

/-! ## On the way -/

/-- Nothing but movement is told on the way from a game to another. -/
def Moves (g g' : Game) : Prop :=
  ∃ es, g'.events = g.events ++ es ∧ ∀ e ∈ es, e.isUnderWay = true

namespace Moves

theorem of_events (same : g'.events = g.events) : Moves g g' :=
  ⟨[], by rw [same, List.append_nil], by simp⟩

theorem trans {h : Game} (first : Moves g h) (second : Moves h g') : Moves g g' := by
  obtain ⟨es, told, all⟩ := first
  obtain ⟨fs, told', all'⟩ := second
  refine ⟨es ++ fs, ?_, List.forall_mem_append.2 ⟨all, all'⟩⟩
  rw [told', told, List.append_assoc]

theorem pushBlock (g : Game) (i : Nat) (d : Direction) : Moves g (g.pushBlock i d) := by
  refine ⟨_, events_pushBlock g i d, ?_⟩
  unfold pushEvents
  split <;> simp [Event.isUnderWay]

theorem landBlock (g : Game) (i : Nat) (b : Block) (m : Motion) : Moves g (g.landBlock i b m) := by
  refine ⟨_, events_landBlock g i b m, ?_⟩
  unfold landEvents
  split <;> simp [Event.isUnderWay]

theorem startMove (g : Game) (d : Direction) : Moves g (g.startMove d) := by
  refine ⟨_, events_startMove g d, ?_⟩
  have leaves : ∀ e ∈ g.leaveEvents g.puffle.pos, e.isUnderWay = true := by
    unfold leaveEvents
    split <;> simp [Event.isUnderWay]
  have pushes (f : Game) (c : Coord) : ∀ e ∈ f.aheadEvents c d, e.isUnderWay = true := by
    intro e told
    obtain ⟨_, _, rfl⟩ := eq_blockPushed_of_mem_aheadEvents told
    rfl
  refine List.forall_mem_append.2 ⟨List.forall_mem_append.2 ⟨leaves, pushes _ _⟩, ?_⟩
  split
  · exact forall_mem_pressEvents _ (fun _ _ => rfl) fun _ => rfl
  · simp

theorem carries : Carries Moves where
  refl _ := of_events rfl
  trans := trans
  setBlock _ _ _ := of_events rfl
  startMove := startMove
  pushBlock := pushBlock
  landBlock := landBlock

end Moves

/-- Before the puffle's part, a tick tells of movement only. -/
theorem isUnderWay_of_mem_approach {e : Event} (told : e ∈ (g.approach input).events) :
    e.isUnderWay = true := by
  obtain ⟨es, added, all⟩ := Moves.carries.approach g input
  rw [added] at told
  exact all e told

/-- The check adds nothing but setbacks. -/
theorem isSetback_of_mem_checkStuck {e : Event} (told : e ∈ g.checkStuck.events) :
    e ∈ g.events ∨ e.isSetback = true := by
  obtain ⟨_, same⟩ | ⟨_, _, _, ⟨_, same⟩ | ⟨_, same⟩⟩ := g.checkStuck_cases
  · exact .inl (same ▸ told)
  · rw [same] at told
    exact .inl told
  · rw [same, events_resetLevel, events_reportStuck] at told
    simp only [List.mem_append, List.mem_singleton] at told
    obtain (early | rfl) | reset := told
    · exact .inl early
    · exact .inr rfl
    · refine .inr ?_
      split at reset <;> simp_all [Event.isSetback]

/-! ## The landing -/

theorem takeKey_of_hasKey (key : g.board.hasKey c = true) :
    (g.takeKey c).events = g.events ++ [.keyCollected c] ∧
      (g.takeKey c).puffle.keys = g.puffle.keys + 1 := by
  have here : ((g.board.get? c).map Tile.key).getD false = true := key
  constructor
  · rw [events_takeKey, keyEvents, if_pos here]
  · rw [takeKey, if_pos here]
    rfl

theorem takeKey_of_not_hasKey (bare : g.board.hasKey c = false) : g.takeKey c = g := by
  have here : ((g.board.get? c).map Tile.key).getD false = false := bare
  rw [takeKey, here]
  rfl

theorem keyCollected_not_mem_bagEvents (c d : Coord) : .keyCollected d ∉ g.bagEvents c := by
  unfold bagEvents
  split <;> simp

theorem hasKey_reach (c d : Coord) :
    ((g.arrive c).takeBag c).board.hasKey d = g.board.hasKey d := hasKey_takeBag c d

theorem hasKey_teleport (c d e : Coord) :
    (g.teleport c d).board.hasKey e = g.board.hasKey e :=
  (hasKey_modify (by simp)).trans (hasKey_modify (by simp))

/-- The puffle lands on a cell with a key, and the level goes on. -/
theorem Advance.pickup (advance : Advance g g') {m : Motion} (moves : g.puffle.motion = some m)
    (done : m.step.isDone = true) (key : g.board.hasKey m.target = true)
    (short : g.board.kind? m.target ≠ some .goal) :
    ∃ es, g'.events = g.events ++ es ∧ g'.board.hasKey m.target = false ∧
      (g.board.kind? m.target ≠ some .lock →
        es.count (.keyCollected m.target) = 1 ∧ g'.puffle.keys = g.puffle.keys + 1) ∧
      (g.board.kind? m.target = some .lock →
        .keyCollected m.target ∉ es ∧ g'.puffle.keys = g.puffle.keys - 1) := by
  have bag (es : List Event) :
      (g.bagEvents m.target ++ es).count (.keyCollected m.target) =
        es.count (.keyCollected m.target) := by
    rw [List.count_append, List.count_eq_zero.2 (keyCollected_not_mem_bagEvents _ _), Nat.zero_add]
  have reached : ((g.arrive m.target).takeBag m.target).events =
      g.events ++ g.bagEvents m.target := events_takeBag _ _
  have kind {t : Tile} (here : g.board.get? m.target = some t) :
      g.board.kind? m.target = some t.kind := by
    rw [kind?, here, Option.map_some]
  cases advance with
  | rest rests => cases rests.symm.trans moves
  | walk moves' going =>
    cases moves'.symm.trans moves
    cases going.symm.trans done
  | leaveBoard moves' _ off =>
    cases moves'.symm.trans moves
    simp [hasKey, off] at key
  | reachGoal moves' _ here goal =>
    cases moves'.symm.trans moves
    exact absurd ((kind here).trans (congrArg some goal)) short
  | enterLock moves' _ here lock =>
    cases moves'.symm.trans moves
    have locked := (kind here).trans (congrArg some lock)
    -- the tile has been replaced by ice, which has no key
    have bare : (((g.arrive m.target).takeBag m.target).openLock m.target).board.hasKey m.target =
        false := by
      rw [board_openLock, hasKey_changeTile, if_pos rfl]
    rw [takeKey_of_not_hasKey bare]
    refine ⟨g.bagEvents m.target ++ [.tileChanged m.target .ice, .keyUsed m.target], ?_, bare,
      fun other => absurd locked other, fun _ => ⟨?_, ?_⟩⟩
    · rw [events_awaitStuckCheck, events_openLock, reached, List.append_assoc]
    · simp [keyCollected_not_mem_bagEvents]
    · exact congrArg (· - 1) (keys_reach g m.target)
  | @enterTeleporter _ t d moves' _ here teleporter =>
    cases moves'.symm.trans moves
    have other : g.board.kind? m.target ≠ some .lock := by simp [kind here, teleporter]
    have kept : (((g.arrive m.target).takeBag m.target).teleport m.target d).board.hasKey
        m.target = true := by
      rw [hasKey_teleport, hasKey_reach, key]
    obtain ⟨told, keys⟩ := takeKey_of_hasKey kept
    refine ⟨g.bagEvents m.target ++ [.teleported m.target d, .keyCollected m.target], ?_, ?_,
      fun _ => ⟨?_, ?_⟩, fun locked => absurd locked other⟩
    · rw [told, events_teleport, reached]
      simp only [List.append_assoc, List.cons_append, List.nil_append]
    · rw [hasKey_takeKey, if_pos rfl]
    · rw [bag]
      simp
    · rw [keys]
      exact congrArg (· + 1) (keys_reach g m.target)
  | enterPlain moves' _ here plain =>
    cases moves'.symm.trans moves
    have other : g.board.kind? m.target ≠ some .lock := by simp [kind here, plain.2]
    have kept : ((g.arrive m.target).takeBag m.target).board.hasKey m.target = true := by
      rw [hasKey_reach, key]
    obtain ⟨told, keys⟩ := takeKey_of_hasKey kept
    refine ⟨g.bagEvents m.target ++ [.keyCollected m.target], ?_, ?_, fun _ => ⟨?_, ?_⟩,
      fun locked => absurd locked other⟩
    · rw [events_awaitStuckCheck, told, reached, List.append_assoc]
    · rw [board_awaitStuckCheck, hasKey_takeKey, if_pos rfl]
    · rw [bag]
      simp
    · rw [puffle_awaitStuckCheck, keys, keys_reach]

end Game

/-! ## Runs -/

section
variable {levels : List Level} {rules : Rules} {seed : UInt64} {g₀ : Game} {r : Run} {c : Coord}
  {input : Input}

/-- In a tick in which the puffle lands on a key and does not complete the level, the landing takes
the key off the cell. It is told and counted once unless it lay on a lock. There it is lost: the
tick tells of no key, and the puffle has only paid for the lock. -/
theorem key_pickup (new : Game.new levels rules seed = .ok g₀) (h : Run.Reachable g₀ r)
    (lands : r.game.landsOn? input = some c)
    (key : (r.game.approach input).board.hasKey c = true)
    (short : (r.game.approach input).board.kind? c ≠ some .goal) :
    let before := r.game.approach input
    let after := r.game.beforeCheck input
    r.game.tick input = after.checkStuck ∧ after.events <+: (r.game.tick input).events ∧
      ∃ es, after.events = before.events ++ es ∧ after.board.hasKey c = false ∧
        (before.board.kind? c ≠ some .lock →
          es.count (.keyCollected c) = 1 ∧ after.puffle.keys = before.puffle.keys + 1) ∧
        (before.board.kind? c = some .lock →
          .keyCollected c ∉ (r.game.tick input).events ∧
            after.puffle.keys + 1 = before.puffle.keys) := by
  intro before after
  obtain ⟨⟨playing, going⟩, m, moves, done, rfl⟩ := Game.landsOn?_eq_some.1 lands
  have keyed : before.Keyed := Game.keyed_approach playing (h.keyed new)
  obtain ⟨es, added, taken, found, lost⟩ :=
    before.advance_advancePuffle.pickup moves done key short
  have tick := Game.tick_eq playing going
  refine ⟨tick, ?_, es, added, taken, found, fun lock => ⟨fun told => ?_, ?_⟩⟩
  · rw [tick]
    exact Run.events_prefix_steps (Game.steps_checkStuck _)
  · rw [tick] at told
    obtain told | setback := Game.isSetback_of_mem_checkStuck told
    · have told : .keyCollected m.target ∈ before.events ++ es := added ▸ told
      obtain early | late := List.mem_append.1 told
      · cases Game.isUnderWay_of_mem_approach early
      · exact (lost lock).1 late
    · cases setback
  · have paid : 0 < before.puffle.keys := keyed m moves lock
    have keys : after.puffle.keys = before.puffle.keys - 1 := (lost lock).2
    omega

end

/-- A key before a lock, and another one on it. -/
def strongroom : Level where
  origin := .zero
  spawn := .zero
  tiles := .set (.filled 4 1 .empty) 2 0 .lock
  keys := [⟨1, 0⟩, ⟨2, 0⟩]
  blocks := []
  bag := none
  patches := []

/-- The puffle takes the first key and opens the lock with it. The second key is gone, and nothing
tells of it. -/
theorem key_pickup_in_strongroom :
    ∃ g₀ r, Game.new [strongroom] Rules.standard 0 = .ok g₀ ∧ Run.Reachable g₀ r ∧
      r.game.landsOn? .idle = some ⟨2, 0⟩ ∧ r.game.board.hasKey ⟨2, 0⟩ = true ∧
      r.game.puffle.keys = 1 ∧ .keyCollected ⟨2, 0⟩ ∉ (r.game.tick .idle).events ∧
      (r.game.beforeCheck .idle).board.hasKey ⟨2, 0⟩ = false ∧
      (r.game.beforeCheck .idle).puffle.keys = 0 := by
  obtain ⟨g₀, new⟩ : ∃ g₀, Game.new [strongroom] Rules.standard 0 = .ok g₀ := ⟨_, rfl⟩
  let r := (.start 1 :: List.replicate 7 (.tick (.hold .right))).foldl Run.act (.start g₀)
  have reached : Run.Reachable g₀ r := .actions _
  have played : r.game.landsOn? .idle = some ⟨2, 0⟩ ∧ r.game.board.hasKey ⟨2, 0⟩ = true ∧
      r.game.puffle.keys = 1 ∧ (r.game.approach .idle).puffle.keys = 1 ∧
      (r.game.approach .idle).board.hasKey ⟨2, 0⟩ = true ∧
      (r.game.approach .idle).board.kind? ⟨2, 0⟩ = some .lock := by
    cases new
    decide +kernel
  obtain ⟨lands, lies, keys, held, key, lock⟩ := played
  obtain ⟨_, _, _, _, taken, _, lost⟩ := key_pickup new reached lands key (by simp [lock])
  obtain ⟨untold, paid⟩ := lost lock
  exact ⟨g₀, r, new, reached, lands, lies, keys, untold, taken, by omega⟩

end IceMaze
