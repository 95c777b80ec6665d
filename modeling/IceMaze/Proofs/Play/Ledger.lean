import IceMaze.Proofs.Play.Melting

/-!
The books of a game: points and keys, and the events that account for them.

Points of completed levels are kept apart from those of the level in play. The first are the sum of
what the completions have told (`Scored`). The second are told melt by melt, with the coin bag,
since the level was last drawn, and so are the keys (`Ledger`). `score_ledger` puts both together.
-/

namespace IceMaze

namespace Event

def isBag : Event → Bool
  | .bagCollected _ => true
  | _ => false

def isKeyFound : Event → Bool
  | .keyCollected _ => true
  | _ => false

def isKeyUsed : Event → Bool
  | .keyUsed _ => true
  | _ => false

/-- The event tells of points or keys of the level in play. -/
def isEntry (e : Event) : Bool := e.isMelt || e.isBag || e.isKeyFound || e.isKeyUsed

/-- Whether a completed level was solved, and its points. -/
def completion? : Event → Option (Bool × Nat)
  | .levelCompleted _ solved points => some (solved, points)
  | _ => none

def completions (log : List Event) : List (Bool × Nat) := log.filterMap completion?

theorem completions_append (log es : List Event) :
    completions (log ++ es) = completions log ++ completions es := List.filterMap_append

theorem completion?_of_isOfPlay {e : Event} (play : e.isOfPlay = true) :
    e.completion? = none := by
  cases e with
  | levelCompleted => cases play
  | _ => rfl

end Event

namespace Game

open Board Event

variable {g g' : Game}

/-! ## Completed levels -/

/-- The points and the outcome of completed levels are as they have been told. -/
structure Scored (log : List Event) (g : Game) : Prop where
  points : g.pointsAtStart = ((completions log).map Prod.snd).sum
  solved : g.solvedPrevious = ((completions log).getLast?.map Prod.fst).getD false

theorem Scored.silent {log es : List Event} (h : Scored log g)
    (silent : ∀ e ∈ es, e.completion? = none) (points : g'.pointsAtStart = g.pointsAtStart)
    (solved : g'.solvedPrevious = g.solvedPrevious) : Scored (log ++ es) g' := by
  have same : completions (log ++ es) = completions log := by
    rw [completions_append, completions, completions, List.filterMap_eq_nil_iff.2 silent,
      List.append_nil]
  constructor
  · rw [same, points, h.points]
  · rw [same, solved, h.solved]

theorem Scored.complete {log : List Event} (h : Scored log g) :
    Scored (log ++ [.levelCompleted g.levelNumber (g.melted = g.total)
      (g.pointsInLevel + g.bonus)]) g.complete := by
  have added : completions (log ++ [.levelCompleted g.levelNumber (g.melted = g.total)
      (g.pointsInLevel + g.bonus)]) =
      completions log ++ [(decide (g.melted = g.total), g.pointsInLevel + g.bonus)] :=
    completions_append _ _
  constructor
  · have total : g.complete.pointsAtStart = g.pointsAtStart + (g.pointsInLevel + g.bonus) := rfl
    rw [added, total, h.points]
    simp
  · rw [added]
    simp [Game.complete, emit, note]

theorem Scored.resetLevel {past : List Event} (h : Scored (past ++ g.events) g) :
    Scored (past ++ g.resetLevel.events) g.resetLevel := by
  have setting := g.setting_resetLevel
  rw [events_resetLevel, ← List.append_assoc]
  apply h.silent
  · split <;> simp [completion?]
  · have points := congrArg Setting.pointsAtStart setting
    split at points <;> exact points
  · have solved := congrArg Setting.solvedPrevious setting
    split at solved <;> exact solved

theorem Scored.load {past : List Event} (h : Scored (past ++ g.events) g) (n : Nat) (l : Level) :
    Scored (past ++ (g.load n l).events) (g.load n l) := by
  rw [events_load, ← List.append_assoc]
  apply h.silent
  · simp [completion?]
  · exact g.pointsAtStart_load n l
  · exact g.solvedPrevious_load n l

theorem Turn.scored {past : List Event} (turn : Turn g g') (h : Scored (past ++ g.events) g) :
    Scored (past ++ g'.events) g' := by
  have completed : Scored (past ++ g.complete.events) g.complete := by
    rw [events_complete, ← List.append_assoc]
    exact h.complete
  cases turn with
  | fail =>
    apply Scored.resetLevel
    rw [events_emit, ← List.append_assoc]
    exact h.silent (by simp [completion?]) rfl rfl
  | reset => exact h.resetLevel
  | load => exact h.load _ _
  | next => exact completed.load _ _
  | conclude =>
    rw [events_finish, ← List.append_assoc]
    exact completed.silent (by simp [completion?]) rfl rfl

/-! ## The level in play -/

/-- The cell on which the coin bag of the level has been put. -/
def bagCell? (g : Game) : Option Coord :=
  if g.solvedPrevious then g.layout.bind Level.bag else none

/-- Points and keys are those told since the level was drawn, and each bag told of was there. -/
structure Ledger (log : List Event) (g : Game) : Prop where
  points : g.pointsInLevel = (sinceOpening log).countP isMelt +
    g.rules.coinBagBonus * (sinceOpening log).countP isBag
  keys : g.puffle.keys + (sinceOpening log).countP isKeyUsed =
    (sinceOpening log).countP isKeyFound
  bags : ∀ c, (sinceOpening log).count (.bagCollected c) + (if g.board.hasBag c then 1 else 0) ≤
    if g.bagCell? = some c then 1 else 0

/-- The changes of points, keys and bags that `es` tells of. -/
structure Books (es : List Event) (g g' : Game) : Prop where
  points : g'.pointsInLevel =
    g.pointsInLevel + es.countP isMelt + g.rules.coinBagBonus * es.countP isBag
  keys : g'.puffle.keys + es.countP isKeyUsed = g.puffle.keys + es.countP isKeyFound
  bags : ∀ c, es.count (.bagCollected c) + (if g'.board.hasBag c then 1 else 0) ≤
    if g.board.hasBag c then 1 else 0

namespace Books

/-- Bags may be lost without a word, but none appears. -/
theorem bags_of_lost {es : List Event} (untaken : ∀ c, .bagCollected c ∉ es)
    (bags : ∀ c, g'.board.hasBag c = true → g.board.hasBag c = true) (c : Coord) :
    es.count (.bagCollected c) + (if g'.board.hasBag c then 1 else 0) ≤
      if g.board.hasBag c then 1 else 0 := by
  rw [List.count_eq_zero.2 (untaken c), Nat.zero_add]
  by_cases bag : g'.board.hasBag c = true
  · rw [if_pos bag, if_pos (bags c bag)]
  · rw [if_neg bag]
    exact Nat.zero_le _

theorem of_unentered {es : List Event} (unentered : ∀ e ∈ es, e.isEntry = false)
    (points : g'.pointsInLevel = g.pointsInLevel) (keys : g'.puffle.keys = g.puffle.keys)
    (bags : ∀ c, g'.board.hasBag c = true → g.board.hasBag c = true) : Books es g g' := by
  have none_of {p : Event → Bool} (entry : ∀ e, p e = true → e.isEntry = true) :
      es.countP p = 0 := by
    rw [List.countP_eq_zero]
    intro e told counted
    cases (unentered e told).symm.trans (entry e counted)
  refine ⟨?_, ?_, bags_of_lost (fun c told => ?_) bags⟩
  · rw [none_of (p := isMelt) (by simp +contextual [isEntry]),
      none_of (p := isBag) (by simp +contextual [isEntry]), points]
    rfl
  · rw [none_of (p := isKeyUsed) (by simp +contextual [isEntry]),
      none_of (p := isKeyFound) (by simp +contextual [isEntry]), keys]
  · cases unentered _ told

end Books

/-! ## Operations -/

theorem books_leave (c : Coord) : Books (g.leaveEvents c) g (g.leave c) := by
  constructor
  · unfold leaveEvents leave
    cases (g.board.kind? c).bind melt? <;> rfl
  · unfold leaveEvents leave
    cases (g.board.kind? c).bind melt? <;> rfl
  · apply Books.bags_of_lost
    · unfold leaveEvents
      split <;> simp
    · exact fun _ => hasBag_of_leave

theorem books_pushBlock (i : Nat) (d : Direction) :
    Books (g.pushEvents i d) g (g.pushBlock i d) := by
  unfold pushEvents
  cases here : g.blocks[i]? with
  | none =>
    rw [pushBlock_of_none d here]
    exact .of_unentered (by simp) rfl rfl fun _ => id
  | some b =>
    apply Books.of_unentered
    · simp [isEntry, isMelt, isBag, isKeyFound, isKeyUsed]
    · simp [pushBlock, here, modifyTile, setBlock, note, emit]
    · rw [puffle_pushBlock]
    · intro c bag
      rw [board_pushBlock d here, hasBag_modify] at bag
      · exact bag
      · intro t
        split <;> rfl

theorem books_pressButton : Books g.pressEvents g g.pressButton := by
  apply Books.of_unentered
  · exact g.forall_mem_pressEvents (fun _ _ => rfl) fun _ => rfl
  · obtain ⟨board, events, notes, pressed⟩ := g.pressButton_eq
    rw [pressed]
  · rw [puffle_pressButton]
  · intro c bag
    rw [board_pressButton, hasBag_place] at bag
    exact hasBag_of_revealSecret bag

theorem books_landBlock (i : Nat) (b : Block) (m : Motion) :
    Books (g.landEvents i b m) g (g.landBlock i b m) := by
  apply Books.of_unentered
  · unfold landEvents
    split <;> simp [isEntry, isMelt, isBag, isKeyFound, isKeyUsed]
  · simp only [landBlock]
    split <;> rfl
  · rw [puffle_landBlock]
  · intro c bag
    rwa [board_landBlock, hasBag_modify (by simp)] at bag

theorem books_takeBag (c : Coord) : Books (g.bagEvents c) g (g.takeBag c) := by
  constructor
  · unfold bagEvents takeBag
    split
    · simp [emit, modifyTile, isMelt, isBag]
    · rfl
  · unfold bagEvents takeBag
    split <;> rfl
  · intro d
    have events : g.bagEvents c = if g.board.hasBag c then [.bagCollected c] else [] := rfl
    rw [events, hasBag_takeBag]
    by_cases same : d = c
    · subst same
      split <;> simp
    · rw [if_neg same]
      split <;> simp [Ne.symm same]

theorem books_takeKey (c : Coord) : Books (g.keyEvents c) g (g.takeKey c) := by
  constructor
  · unfold keyEvents takeKey
    split <;> rfl
  · unfold keyEvents takeKey
    split <;> rfl
  · apply Books.bags_of_lost
    · unfold keyEvents
      split <;> simp
    · intro d bag
      rwa [hasBag_takeKey] at bag

/-- A lock is only opened with a key that there is. -/
theorem books_openLock {c : Coord} (key : 0 < g.puffle.keys) :
    Books [.tileChanged c .ice, .keyUsed c] g (g.openLock c) := by
  refine ⟨rfl, ?_, Books.bags_of_lost (by simp) fun d bag => ?_⟩
  · have spent : (g.openLock c).puffle.keys = g.puffle.keys - 1 := rfl
    have used : [Event.tileChanged c .ice, .keyUsed c].countP isKeyUsed = 1 := rfl
    have found : [Event.tileChanged c .ice, .keyUsed c].countP isKeyFound = 0 := rfl
    omega
  · rw [board_openLock, hasBag_changeTile] at bag
    split at bag
    · cases bag
    · exact bag

theorem books_teleport (c d : Coord) : Books [.teleported c d] g (g.teleport c d) := by
  apply Books.of_unentered
  · simp [isEntry, isMelt, isBag, isKeyFound, isKeyUsed]
  · rfl
  · rfl
  · intro e bag
    have board : (g.teleport c d).board =
        (g.board.modify c fun t => { t with plaid := true }).modify d fun t =>
          { t with plaid := true } := rfl
    rwa [board, hasBag_modify (by simp), hasBag_modify (by simp)] at bag

theorem Operation.books {es : List Event} (op : Operation g es g') : Books es g g' := by
  cases op with
  | still _ board _ points keys =>
    exact .of_unentered (by simp) points keys fun c bag => board ▸ bag
  | leave c => exact books_leave c
  | pushBlock i d => exact books_pushBlock i d
  | pressButton => exact books_pressButton
  | landBlock i b m => exact books_landBlock i b m
  | takeBag c => exact books_takeBag c
  | takeKey c => exact books_takeKey c
  | openLock _ key => exact books_openLock key
  | teleport => exact books_teleport _ _

theorem Ledger.operation {log es : List Event} (op : Operation g es g') (h : Ledger log g) :
    Ledger (log ++ es) g' := by
  have books := op.books
  have setting := op.setting
  have added := sinceOpening_append log fun e told => opensLevel_of_isOfPlay (op.told e told)
  have rules : g'.rules = g.rules := rules_of_setting setting
  have bag : g'.bagCell? = g.bagCell? := by
    have solved : g'.solvedPrevious = g.solvedPrevious := solvedPrevious_of_setting setting
    rw [bagCell?, solved, layout_of_setting setting, bagCell?]
  refine ⟨?_, ?_, fun c => ?_⟩
  · rw [added, List.countP_append, List.countP_append, books.points, h.points, rules, Nat.mul_add]
    omega
  · have keys := h.keys
    have changed := books.keys
    rw [added, List.countP_append, List.countP_append]
    omega
  · have before := h.bags c
    have changed := books.bags c
    rw [added, List.count_append, bag]
    omega

/-! ## The level is drawn -/

theorem ledger_of_drawn {l : Level} (drawn : g.drawing = l.drawing g.solvedPrevious)
    (layout : g.layout = some l) {log : List Event} {e : Event} (opens : e.opensLevel = true) :
    Ledger (log ++ [e]) g := by
  have points : g.pointsInLevel = 0 := congrArg Drawing.pointsInLevel drawn
  have puffle : g.puffle = .new l.spawn := congrArg Drawing.puffle drawn
  have board : g.board = openingBoard l g.solvedPrevious := congrArg Drawing.board drawn
  refine ⟨?_, ?_, fun c => ?_⟩
  · simp [sinceOpening_concat opens, points]
  · simp [sinceOpening_concat opens, puffle, Puffle.new]
  · rw [sinceOpening_concat opens, List.count_nil, Nat.zero_add]
    by_cases bag : g.board.hasBag c = true
    · rw [board] at bag
      obtain ⟨earned, placed⟩ := bag_of_hasBag_openingBoard bag
      have here : g.bagCell? = some c := by simp [bagCell?, earned, layout, placed]
      rw [if_pos here]
      split <;> omega
    · rw [if_neg bag]
      exact Nat.zero_le _

/-- The level has one bag at most, and it is taken once at most. -/
theorem Ledger.countP_isBag {log : List Event} (h : Ledger log g) :
    (sinceOpening log).countP isBag ≤ if g.solvedPrevious then 1 else 0 := by
  have taken : ∀ c, .bagCollected c ∈ sinceOpening log → g.bagCell? = some c := by
    intro c told
    have counted := List.count_pos_iff.2 told
    have bags := h.bags c
    by_cases here : g.bagCell? = some c
    · exact here
    · rw [if_neg here] at bags
      omega
  cases cell : g.bagCell? with
  | none =>
    have none_taken : (sinceOpening log).countP isBag = 0 := by
      rw [List.countP_eq_zero]
      intro e told bag
      cases e with
      | bagCollected c => cases cell.symm.trans (taken c told)
      | _ => cases bag
    rw [none_taken]
    exact Nat.zero_le _
  | some c =>
    have earned : g.solvedPrevious = true := by
      unfold bagCell? at cell
      split at cell
      · assumption
      · cases cell
    have same : (sinceOpening log).countP isBag = (sinceOpening log).count (.bagCollected c) := by
      apply List.countP_congr
      intro e told
      cases e with
      | bagCollected d =>
        cases cell.symm.trans (taken d told)
        simp [isBag]
      | _ => simp [isBag]
    have bags := h.bags c
    rw [if_pos cell] at bags
    rw [same, if_pos earned]
    omega

end Game

/-! ## Runs -/

section
variable {levels : List Level} {rules : Rules} {seed : UInt64} {g₀ : Game} {r : Run}

theorem Game.scored_of_new (new : Game.new levels rules seed = .ok g₀) : g₀.Scored [] := by
  unfold Game.new at new
  split at new
  · cases new
  · cases new
    exact ⟨rfl, rfl⟩

theorem Run.Reachable.scored (new : Game.new levels rules seed = .ok g₀)
    (h : Run.Reachable g₀ r) : r.game.Scored r.events := by
  apply h.by_turns new (Game.scored_of_new new)
  · intro log g scored
    exact ⟨scored.points, scored.solved⟩
  · intro log es g g' op scored
    apply scored.silent
    · intro e told
      exact Event.completion?_of_isOfPlay (op.told e told)
    · exact congrArg Setting.pointsAtStart op.setting
    · exact Game.solvedPrevious_of_setting op.setting
  · intro past g g' turn _ scored
    exact turn.scored scored

theorem Run.Reachable.ledger (new : Game.new levels rules seed = .ok g₀)
    (h : Run.Reachable g₀ r) (playing : r.game.phase = .playing) : r.game.Ledger r.events := by
  refine h.by_operations (P := fun log g => g.phase = .playing → g.Ledger log) new ?_ ?_ ?_ ?_ ?_
    playing
  · intro playing
    cases (Game.unstarted_of_new new).phase.symm.trans playing
  · intro log g ledger playing
    exact ⟨(ledger playing).points, (ledger playing).keys, (ledger playing).bags⟩
  · intro log e g l opens layout drawn _
    exact Game.ledger_of_drawn drawn layout opens
  · intro log es g g' op ledger playing
    exact (ledger ((Game.phase_of_setting op.setting).symm.trans playing)).operation op
  · intro log g _ playing
    cases playing

/-- The score is what completed levels have paid and the points of the level in play; these and the
keys are what has been told since the level was drawn, and no lock is reached without a key. -/
theorem score_ledger (new : Game.new levels rules seed = .ok g₀) (h : Run.Reachable g₀ r) :
    r.game.score =
      ((Event.completions r.events).map Prod.snd).sum + r.game.pointsInLevel ∧
    (r.game.phase = .playing →
      let told := Event.sinceOpening r.events
      r.game.melted = told.countP Event.isMelt ∧
      told.countP Event.isBag ≤ 1 ∧
      ((∀ points, (Event.completions r.events).getLast? ≠ some (true, points)) →
        told.countP Event.isBag = 0) ∧
      r.game.pointsInLevel =
        told.countP Event.isMelt + rules.coinBagBonus * told.countP Event.isBag ∧
      r.game.puffle.keys + told.countP Event.isKeyUsed = told.countP Event.isKeyFound ∧
      ∀ input c, r.game.landsOn? input = some c →
        (r.game.approach input).board.kind? c = some .lock →
        0 < (r.game.approach input).puffle.keys) := by
  have scored := h.scored new
  refine ⟨?_, ?_⟩
  · rw [Game.score, scored.points]
  · intro playing told
    have ledger := h.ledger new playing
    have bags := ledger.countP_isBag
    have once : (Event.sinceOpening r.events).countP Event.isBag ≤ 1 := by
      split at bags <;> omega
    refine ⟨(h.melting new).melted, once, ?_, ?_, ledger.keys, ?_⟩
    · intro unsolved
      have lost : r.game.solvedPrevious = false := by
        rw [scored.solved]
        cases last : (Event.completions r.events).getLast? with
        | none => rfl
        | some completed =>
          obtain ⟨solved, points⟩ := completed
          cases solved with
          | false => rfl
          | true => exact absurd last (unsolved points)
      rw [lost] at bags
      simpa using bags
    · rw [← h.rules_eq new]
      exact ledger.points
    · intro input c lands lock
      obtain ⟨_, m, moves, _, rfl⟩ := Game.landsOn?_eq_some.1 lands
      have keyed : (r.game.approach input).Keyed :=
        (Game.steps_approach input playing).keeps (fun _ _ step => step.keyed) (h.keyed new)
      exact keyed m moves lock

end

/-- A tile of ice before the goal. -/
def doorstep : Level where
  origin := .zero
  spawn := .zero
  tiles := .set (.filled 2 1 .ice) 1 0 .goal
  keys := []
  blocks := []
  bag := none
  patches := []

/-- A key, a lock and the coin bag in a row. -/
def vault : Level where
  origin := .zero
  spawn := .zero
  tiles := .set (.filled 4 1 .empty) 2 0 .lock
  keys := [⟨1, 0⟩]
  blocks := []
  bag := some ⟨3, 0⟩
  patches := []

/-- The first level has paid three points. In the second the key is spent, the lock has melted and
the bag is taken. -/
theorem score_ledger_in_vault :
    ∃ g₀ r, Game.new [doorstep, vault] { Rules.standard with puffleMoveTicks := 1 } 0 = .ok g₀ ∧
      Run.Reachable g₀ r ∧ r.game.phase = .playing ∧ r.game.puffle.keys = 0 ∧
      (Event.completions r.events).getLast? = some (true, 3) ∧
      (Event.sinceOpening r.events).countP Event.isBag = 1 ∧
      (Event.sinceOpening r.events).countP Event.isKeyUsed = 1 ∧ r.game.score = 104 ∧
      r.game.score =
        ((Event.completions r.events).map Prod.snd).sum + r.game.pointsInLevel ∧
      r.game.puffle.keys + (Event.sinceOpening r.events).countP Event.isKeyUsed =
        (Event.sinceOpening r.events).countP Event.isKeyFound := by
  obtain ⟨g₀, new⟩ : ∃ g₀, Game.new [doorstep, vault]
      { Rules.standard with puffleMoveTicks := 1 } 0 = .ok g₀ := ⟨_, rfl⟩
  let r := (.start 1 :: List.replicate 4 (.tick (.hold .right))).foldl Run.act (.start g₀)
  have reached : Run.Reachable g₀ r := .actions _
  have played : r.game.phase = .playing ∧ r.game.puffle.keys = 0 ∧
      (Event.completions r.events).getLast? = some (true, 3) ∧
      (Event.sinceOpening r.events).countP Event.isBag = 1 ∧
      (Event.sinceOpening r.events).countP Event.isKeyUsed = 1 ∧ r.game.score = 104 := by
    cases new
    decide +kernel
  obtain ⟨playing, keys, completed, bag, used, score⟩ := played
  obtain ⟨paid, level⟩ := score_ledger new reached
  obtain ⟨_, _, _, _, found, _⟩ := level playing
  exact ⟨g₀, r, new, reached, playing, keys, completed, bag, used, score, paid, found⟩

end IceMaze
