import IceMaze.Proofs.Play.Occupancy
import IceMaze.Proofs.Play.Teleporters

/-!
On what ground the puffle and the blocks are.

A move is allowed by the ground ahead when it starts, and it ends some ticks later. Until then only
the puffle changes tiles: the one that it leaves, and those of the secret, which are never a cell
that it heads for. So a move ends on the ground on which it was allowed to (`PuffleSafe`), and no
block is ever on water (`BlocksSafe`).
-/

namespace IceMaze

/-- A move on its way from a cell to a neighbour. -/
structure Motion.Leads (m : Motion) (pos : Coord) : Prop where
  source : m.source = pos
  target : m.target = pos.step m.dir
  inside : m.target.OnBoard
  going : m.elapsed < m.duration

theorem Motion.leads_start {pos : Coord} {d : Direction} (duration : Nat)
    (inside : (pos.step d).OnBoard) : (Motion.start pos (pos.step d) d duration).Leads pos := by
  refine ⟨rfl, rfl, inside, ?_⟩
  have positive : 0 < max duration 1 := by omega
  exact positive

theorem Motion.Leads.step {m : Motion} {pos : Coord} (h : m.Leads pos)
    (going : m.step.isDone = false) : m.step.Leads pos := by
  have unfinished : m.step.elapsed < m.step.duration := by
    simpa [isDone] using going
  unfold Motion.step at unfinished ⊢
  split
  · exact h
  · rename_i before
    rw [if_neg before] at unfinished
    exact ⟨h.source, h.target, h.inside, unfinished⟩

/-- Neither the puffle nor a block of the level starts on ground that it may not enter. -/
structure Level.Grounded (rules : Rules) (l : Level) : Prop where
  spawn : ∀ alt, rules.forbids ((l.variant alt).tileAt l.spawn) = false
  blocks : ∀ alt, ∀ c ∈ l.blocks,
    (l.variant alt).tileAt c ≠ .water ∧ (l.variant alt).tileAt c ≠ .fakeImpassableWall

/-- A block that is on the cell does not lie in water or in a wall. -/
def Board.Firm (b : Board) (c : Coord) : Prop :=
  ∃ k, b.kind? c = some k ∧ k ≠ .water ∧ k ≠ .fakeImpassableWall

namespace Game

open Board

variable {g g' : Game}

/-- The puffle may be on the cell. -/
def Admits (g : Game) (c : Coord) : Prop :=
  ∃ k, g.board.kind? c = some k ∧ g.rules.forbids k = false

theorem Admits.onBoard {c : Coord} (h : g.Admits c) : c.OnBoard := by
  obtain ⟨k, kind, _⟩ := h
  exact onBoard_of_kind? kind

theorem Admits.congr {c : Coord} (h : g.Admits c) (kind : g'.board.kind? c = g.board.kind? c)
    (setting : g'.setting = g.setting) : g'.Admits c := by
  have rules : g'.rules = g.rules := rules_of_setting setting
  unfold Admits
  rw [kind, rules]
  exact h

theorem Admits.firm {c : Coord} (h : g.Admits c) : g.board.Firm c := by
  obtain ⟨k, kind, free⟩ := h
  refine ⟨k, kind, ?_, ?_⟩
  · rintro rfl
    simp [Rules.forbids, TileKind.isImpassable] at free
  · rintro rfl
    simp [Rules.forbids, TileKind.isImpassable] at free

theorem forbids_ice (rules : Rules) : rules.forbids .ice = false := by
  simp [Rules.forbids, TileKind.isImpassable]

theorem forbids_teleporter (rules : Rules) : rules.forbids .teleporter = false := by
  simp [Rules.forbids, TileKind.isImpassable]

theorem admits_of_canPush {c : Coord} {d : Direction} (free : g.canPush c d = true) :
    g.Admits (c.step d) := by
  unfold canPush at free
  simp only [Bool.and_eq_true] at free
  have open_ahead := free.2
  split at open_ahead
  · rename_i k kind
    simp only [Bool.and_eq_true, Bool.not_eq_true'] at open_ahead
    exact ⟨k, kind, open_ahead.1⟩
  · cases open_ahead

theorem admits_of_canMove {d : Direction} (free : g.canMove d = true) :
    g.Admits (g.puffle.pos.step d) := by
  obtain ⟨k, kind, allowed, _⟩ := openAhead_of_canMove free
  exact ⟨k, kind, allowed⟩

/-! ## The puffle -/

/-- The puffle stands on ground that admits it, or it moves to such ground next to it. -/
structure PuffleSafe (g : Game) : Prop where
  inside : g.puffle.pos.OnBoard
  stands : g.puffle.motion = none → g.Admits g.puffle.pos
  walks : ∀ m, g.puffle.motion = some m → m.Leads g.puffle.pos ∧ g.Admits m.target

theorem PuffleSafe.keep (h : g.PuffleSafe) (puffle : g'.puffle = g.puffle)
    (kind : ∀ c, g'.board.kind? c = g.board.kind? c) (setting : g'.setting = g.setting) :
    g'.PuffleSafe := by
  constructor
  · rw [puffle]
    exact h.inside
  · intro rests
    rw [puffle] at rests ⊢
    exact (h.stands rests).congr (kind _) setting
  · intro m moves
    rw [puffle] at moves ⊢
    obtain ⟨leads, admitted⟩ := h.walks m moves
    exact ⟨leads, admitted.congr (kind _) setting⟩

theorem puffleSafe_of_stands (rests : g.puffle.motion = none) (admitted : g.Admits g.puffle.pos) :
    g.PuffleSafe := by
  refine ⟨admitted.onBoard, fun _ => admitted, fun m moves => ?_⟩
  cases rests.symm.trans moves

theorem PuffleSafe.startMove (h : g.PuffleSafe) {d : Direction} (free : g.canMove d = true) :
    (g.startMove d).PuffleSafe := by
  have ahead := admits_of_canMove free
  have puffle := puffle_startMove (g := g) d
  refine ⟨?_, fun rests => ?_, fun m moves => ?_⟩
  · rw [puffle]
    exact h.inside
  · rw [puffle] at rests
    cases rests
  · rw [puffle] at moves ⊢
    cases moves
    refine ⟨Motion.leads_start _ ahead.onBoard, ?_⟩
    exact ahead.congr (kind?_startMove_ahead d) (setting_startMove g d)

theorem PuffleSafe.walk (h : g.PuffleSafe) {m : Motion} (moves : g.puffle.motion = some m)
    (going : m.step.isDone = false) :
    { g with puffle := { g.puffle with motion := some m.step } }.PuffleSafe := by
  obtain ⟨leads, admitted⟩ := h.walks m moves
  refine ⟨h.inside, nofun, fun n walks => ?_⟩
  cases walks
  refine ⟨leads.step going, ?_⟩
  rw [target_step]
  exact admitted

theorem Step.puffleSafe (step : Step g g') (paired : g.board.Paired) (h : g.PuffleSafe) :
    g'.PuffleSafe ∨ Turn g g' := by
  cases step with
  | countTick | dropMomentum | glide | forgetStuckCheck =>
    exact .inl (h.keep rfl (fun _ => rfl) rfl)
  | startMove d _ _ free => exact .inl (h.startMove free)
  | slide d => exact .inl (h.keep (by simp) (kind?_pushBlock d) (by simp))
  | land => exact .inl (h.keep (by simp) kind?_landBlock (by simp))
  | walk _ moves going => exact .inl (h.walk moves going)
  | @leaveBoard m _ moves _ off =>
    exact absurd (h.walks m moves).1.inside (get?_eq_none.1 off)
  | @reachGoal m _ _ moves =>
    refine .inl (puffleSafe_of_stands (by simp) ?_)
    rw [puffle_takeBag]
    exact (h.walks m moves).2.congr ((SameGround.reach m.target).kind? _) (by simp)
  | @enterLock m _ _ moves =>
    refine .inl (puffleSafe_of_stands (by simp) ?_)
    have pos : ((((g.arrive m.target).takeBag m.target).openLock m.target).takeKey
        m.target).awaitStuckCheck.puffle.pos = m.target := by
      rw [puffle_awaitStuckCheck, pos_takeKey]
      exact congrArg Puffle.pos (puffle_takeBag m.target)
    rw [pos]
    refine ⟨.ice, ?_, forbids_ice _⟩
    rw [(SameGround.search m.target).kind?, board_openLock, kind?_changeTile,
      if_pos ⟨rfl, (h.walks m moves).1.inside⟩]
  | @enterTeleporter m t c _ moves _ here _ _ linked =>
    refine .inl (puffleSafe_of_stands (by simp) ?_)
    have link : g.board.link? m.target = some c := by
      rw [Board.link?, here, Option.bind_some, linked]
    have pos : ((((g.arrive m.target).takeBag m.target).teleport m.target c).takeKey
        m.target).puffle.pos = c := pos_takeKey m.target
    rw [pos]
    refine ⟨.teleporter, ?_, forbids_teleporter _⟩
    rw [((SameGround.reach m.target).trans (.exit m.target c)).kind?]
    exact paired.partner link
  | @enterPlain m _ _ moves =>
    refine .inl (puffleSafe_of_stands (by simp) ?_)
    have pos : (((g.arrive m.target).takeBag m.target).takeKey
        m.target).awaitStuckCheck.puffle.pos = m.target := by
      rw [puffle_awaitStuckCheck, pos_takeKey, puffle_takeBag]
      rfl
    rw [pos]
    exact (h.walks m moves).2.congr
      (((SameGround.reach m.target).trans (.search m.target)).kind? _) (by simp)
  | fail playing => exact .inr (.fail playing)
  | reset playing => exact .inr (.reset playing)
  | load found => exact .inr (.load found)
  | next found => exact .inr (.next found)
  | conclude last => exact .inr (.conclude last)

/-! ## The blocks -/

/-- Each block is on firm ground, or it moves to such ground next to it. -/
def BlocksSafe (g : Game) : Prop :=
  ∀ b ∈ g.blocks, g.board.Firm b.target ∧ ∀ m, b.motion = some m → m.Leads b.pos

theorem BlocksSafe.keep (h : g.BlocksSafe) (blocks : g'.blocks = g.blocks)
    (firm : ∀ b ∈ g.blocks, g.board.Firm b.target → g'.board.Firm b.target) : g'.BlocksSafe := by
  intro b hb
  rw [blocks] at hb
  obtain ⟨ground, leads⟩ := h b hb
  exact ⟨firm b hb ground, leads⟩

theorem BlocksSafe.sameGround (same : g.SameGround g') (h : g.BlocksSafe) : g'.BlocksSafe := by
  apply h.keep same.blocks
  intro b _ firm
  unfold Firm
  rw [same.kind?]
  exact firm

theorem BlocksSafe.replace {i : Nat} {b : Block} (h : g.BlocksSafe)
    (blocks : g'.blocks = g.blocks.set i b)
    (firm : ∀ b ∈ g.blocks, g.board.Firm b.target → g'.board.Firm b.target)
    (own : g'.board.Firm b.target) (leads : ∀ m, b.motion = some m → m.Leads b.pos) :
    g'.BlocksSafe := by
  intro a ha
  rw [blocks] at ha
  obtain old | rfl := List.mem_or_eq_of_mem_set ha
  · obtain ⟨ground, before⟩ := h a old
    exact ⟨firm a old ground, before⟩
  · exact ⟨own, leads⟩

theorem leads_pushed {b : Block} {d : Direction} (inside : (b.pos.step d).OnBoard) (m : Motion)
    (moves : (g.pushed b d).motion = some m) : m.Leads (g.pushed b d).pos := by
  cases moves
  exact Motion.leads_start _ inside

theorem BlocksSafe.pushBlock (h : g.BlocksSafe) {i : Nat} {b : Block} {d : Direction}
    (here : g.blocks[i]? = some b) (free : g.canPush b.pos d = true) :
    (g.pushBlock i d).BlocksSafe := by
  have ahead := admits_of_canPush free
  have same {c : Coord} (firm : g.board.Firm c) : (g.pushBlock i d).board.Firm c := by
    unfold Firm
    rw [kind?_pushBlock]
    exact firm
  exact h.replace (blocks_pushBlock d here) (fun _ _ => same) (same ahead.firm)
    (leads_pushed ahead.onBoard)

/-- A move onto a block is legal only if the block can be pushed. -/
theorem canPush_of_canMove {d : Direction} {i : Nat} (free : g.canMove d = true)
    (ahead : g.blockAt (g.puffle.pos.step d) = some i) :
    ∃ b, g.blocks[i]? = some b ∧ b.motion = none ∧
      g.canPush (g.puffle.pos.step d) d = true := by
  rw [canMove, canMove?_of_openAhead (openAhead_of_canMove free)] at free
  cases here : g.blocks[i]? with
  | none => simp [ahead, here] at free
  | some b =>
    simp only [ahead, here, Option.map_some, Option.getD_some, Bool.and_eq_true,
      Bool.not_eq_true', Block.isMoving, Option.isSome_eq_false_iff,
      Option.isNone_iff_eq_none] at free
    exact ⟨b, rfl, free⟩

theorem blocks_startMove_of_block (h : g.Occupancy) {d : Direction} {i : Nat} {b : Block}
    (ahead : g.blockAt (g.puffle.pos.step d) = some i) (here : g.blocks[i]? = some b) :
    (g.startMove d).blocks = g.blocks.set i (g.pushed b d) := by
  have pushing : (g.startMove d).blocks =
      ((g.leave g.puffle.pos).pushAhead (g.puffle.pos.step d) d).blocks := blocks_pressAt _
  have rules : (g.leave g.puffle.pos).rules = g.rules :=
    rules_of_setting (setting_leave g g.puffle.pos)
  rw [pushing, pushAhead, h.blockAt_leave, ahead]
  dsimp only
  rw [blocks_pushBlock d (by rw [blocks_leave, here]), blocks_leave, pushed, rules, pushed]

/-- Starting a move changes no block but the one that it pushes. -/
theorem blocks_startMove (h : g.Occupancy) {d : Direction} (free : g.canMove d = true) :
    (g.startMove d).blocks = g.blocks ∨
      ∃ i b, g.blocks[i]? = some b ∧ g.canPush b.pos d = true ∧
        (g.startMove d).blocks = g.blocks.set i (g.pushed b d) := by
  cases ahead : g.blockAt (g.puffle.pos.step d) with
  | none =>
    have pushing : (g.startMove d).blocks =
        ((g.leave g.puffle.pos).pushAhead (g.puffle.pos.step d) d).blocks := blocks_pressAt _
    rw [pushing, pushAhead, h.blockAt_leave, ahead]
    exact .inl (blocks_leave _)
  | some i =>
    obtain ⟨b, here, rests, pushable⟩ := canPush_of_canMove free ahead
    obtain ⟨a, there, target⟩ := h.blockAt_iff.1 ahead
    cases here.symm.trans there
    have pos : b.pos = g.puffle.pos.step d := (target_of_rests rests).symm.trans target
    exact .inr ⟨i, b, here, pos ▸ pushable, blocks_startMove_of_block h ahead here⟩

/-- The secret turns firm ground into firm ground. -/
theorem firm_startMove {d : Direction} {c : Coord} (away : c ≠ g.puffle.pos)
    (firm : g.board.Firm c) : (g.startMove d).board.Firm c := by
  obtain ⟨k, kind, dry, solid⟩ := firm
  unfold Firm
  rw [kind?_startMove d away, kind]
  split
  · refine ⟨(revealed? k).getD k, rfl, ?_, ?_⟩ <;> cases k <;> simp_all [revealed?]
  · exact ⟨k, rfl, dry, solid⟩

theorem BlocksSafe.startMove (h : g.BlocksSafe) (occupancy : g.Occupancy) {d : Direction}
    (free : g.canMove d = true) : (g.startMove d).BlocksSafe := by
  have firm : ∀ b ∈ g.blocks, g.board.Firm b.target → (g.startMove d).board.Firm b.target := by
    intro b hb
    exact firm_startMove (puffleHolds_eq_false.1 (occupancy.clear b hb)).1
  obtain unchanged | ⟨i, b, here, pushable, blocks⟩ := blocks_startMove occupancy free
  · exact h.keep unchanged firm
  · have ahead := admits_of_canPush pushable
    have away := (puffleHolds_eq_false.1 (canPush_eq_true pushable).2.1).1
    exact h.replace blocks firm (firm_startMove away ahead.firm) (leads_pushed ahead.onBoard)

/-- A block comes to rest where it was heading, or at a teleporter. -/
theorem BlocksSafe.landBlock (h : g.BlocksSafe) (paired : g.board.Paired) {i : Nat} {b : Block}
    {m : Motion} (here : g.blocks[i]? = some b) (moves : b.motion = some m) :
    (g.landBlock i b m.step).BlocksSafe := by
  have same {c : Coord} (firm : g.board.Firm c) : (g.landBlock i b m.step).board.Firm c := by
    unfold Firm
    rw [kind?_landBlock]
    exact firm
  have landing : g.board.Firm (g.landing i b m.step) := by
    unfold Game.landing
    cases exit : (g.setBlock i { b with motion := none }).blockExit? m.step.target with
    | none =>
      rw [Option.getD_none, target_step, ← target_of_moves moves]
      exact (h b (List.mem_of_getElem? here)).1
    | some c =>
      obtain ⟨link, _⟩ := blockExit?_eq_some exit
      exact ⟨.teleporter, paired.partner link, nofun, nofun⟩
  obtain ⟨momentum, _, blocks⟩ := blocks_landBlock (g := g) (i := i) (b := b) (m := m.step)
  exact h.replace blocks (fun _ _ => same) (same landing) nofun

theorem firm_changeTile {b : Board} {c d : Coord} (firm : b.Firm c) :
    (b.changeTile d .ice).Firm c := by
  unfold Firm
  rw [kind?_changeTile]
  split
  · exact ⟨.ice, rfl, nofun, nofun⟩
  · exact firm

theorem Step.blocksSafe (step : Step g g') (paired : g.board.Paired) (occupancy : g.Occupancy)
    (h : g.BlocksSafe) : g'.BlocksSafe ∨ Turn g g' := by
  cases step with
  | countTick | walk | forgetStuckCheck => exact .inl (h.sameGround (.of_board rfl rfl rfl))
  | startMove d _ _ free => exact .inl (h.startMove occupancy free)
  | dropMomentum _ here rests =>
    have own := (h _ (List.mem_of_getElem? here)).1
    refine .inl (h.replace rfl (fun _ _ => id) own fun m moves => ?_)
    cases rests.symm.trans moves
  | slide d _ here _ free => exact .inl (h.pushBlock here free)
  | @glide i b m _ here moves going =>
    obtain ⟨own, leads⟩ := h b (List.mem_of_getElem? here)
    rw [target_of_moves moves] at own
    refine .inl (h.replace rfl (fun _ _ => id) ?_ fun n glides => ?_)
    · have target : { b with motion := some m.step }.target = m.target := target_step m
      rw [target]
      exact own
    · cases glides
      exact (leads m moves).step going
  | land _ here moves => exact .inl (h.landBlock paired here moves)
  | @leaveBoard m => exact .inl (h.sameGround (.arrive m.target))
  | @reachGoal m => exact .inl (h.sameGround (.reach m.target))
  | @enterLock m =>
    have reached := h.sameGround (.reach m.target)
    have opened : (((g.arrive m.target).takeBag m.target).openLock m.target).BlocksSafe :=
      reached.keep rfl fun _ _ => firm_changeTile
    exact .inl (opened.sameGround (.search m.target))
  | @enterTeleporter m _ c =>
    exact .inl (h.sameGround ((SameGround.reach m.target).trans (.exit m.target c)))
  | @enterPlain m =>
    exact .inl (h.sameGround ((SameGround.reach m.target).trans (.search m.target)))
  | fail playing => exact .inr (.fail playing)
  | reset playing => exact .inr (.reset playing)
  | load found => exact .inr (.load found)
  | next found => exact .inr (.next found)
  | conclude last => exact .inr (.conclude last)

/-! ## A level is drawn -/

theorem puffleSafe_of_drawn {l : Level} {alt : Bool} (placed : l.WellPlaced)
    (grounded : l.Grounded g.rules)
    (drawn : g.drawing = (l.variant alt).drawing g.solvedPrevious) : g.PuffleSafe := by
  have puffle : g.puffle = .new l.spawn := congrArg Drawing.puffle drawn
  apply puffleSafe_of_stands
  · rw [puffle]
    rfl
  · rw [puffle]
    refine ⟨(l.variant alt).tileAt l.spawn, ?_, grounded.spawn alt⟩
    rw [board_of_drawn drawn, kind?_openingBoard]
    exact if_pos (placed.onBoard placed.spawn_within)

theorem blocksSafe_of_drawn {l : Level} {alt : Bool} (placed : l.WellPlaced)
    (grounded : l.Grounded g.rules)
    (drawn : g.drawing = (l.variant alt).drawing g.solvedPrevious) : g.BlocksSafe := by
  have blocks : g.blocks = l.blocks.map .new := congrArg Drawing.blocks drawn
  intro b hb
  rw [blocks] at hb
  obtain ⟨c, hc, rfl⟩ := List.mem_map.1 hb
  refine ⟨⟨(l.variant alt).tileAt c, ?_, grounded.blocks alt c hc⟩, nofun⟩
  rw [board_of_drawn drawn, kind?_openingBoard]
  exact if_pos (placed.onBoard (placed.blocks_within c hc))

/-- In play the puffle and the blocks are on ground where they may be. -/
structure OnTerrain (levels : List Level) (rules : Rules) (g : Game) : Prop where
  loaded : g.setting.Loaded levels
  rules_eq : g.rules = rules
  keyed : g.Keyed
  paired : g.board.Paired
  occupancy : g.phase = .playing → g.Occupancy
  safe : g.phase = .playing → g.PuffleSafe ∧ g.BlocksSafe

theorem Turn.safe {levels : List Level} {rules : Rules} (placed : ∀ l ∈ levels, l.WellPlaced)
    (grounded : ∀ l ∈ levels, l.Grounded rules) (turn : Turn g g')
    (loaded : g.setting.Loaded levels) (loaded' : g'.setting.Loaded levels)
    (rules_eq : g'.rules = rules) (plays : g'.phase = .playing) :
    g'.PuffleSafe ∧ g'.BlocksSafe := by
  obtain ⟨_, _, l, _, _, layout, drawn⟩ | rfl := turn.drawn loaded
  · obtain ⟨m, _, found, rfl, _⟩ := loaded'.layout_eq l layout
    have here := List.mem_of_getElem? found
    have ground : m.Grounded g'.rules := rules_eq ▸ grounded m here
    exact ⟨puffleSafe_of_drawn (placed m here) ground drawn,
      blocksSafe_of_drawn (placed m here) ground drawn⟩
  · cases plays

theorem Step.onTerrain {levels : List Level} {rules : Rules}
    (uncrowded : ∀ l ∈ levels, l.Uncrowded) (grounded : ∀ l ∈ levels, l.Grounded rules)
    (step : Step g g') (h : g.OnTerrain levels rules) : g'.OnTerrain levels rules := by
  have loaded := step.loaded h.loaded
  have rules_eq : g'.rules = rules := step.rules_eq.trans h.rules_eq
  refine ⟨loaded, rules_eq, step.keyed h.keyed, step.paired h.loaded h.keyed h.paired,
    step.occupancy uncrowded h.loaded h.occupancy, fun plays => ?_⟩
  have turned (turn : Turn g g') : g'.PuffleSafe ∧ g'.BlocksSafe :=
    turn.safe (fun l hl => (uncrowded l hl).placed) grounded h.loaded loaded rules_eq plays
  obtain ⟨es, _, played⟩ | turn := step.plays h.keyed
  · have playing : g.phase = .playing := (phase_of_setting played.setting).symm.trans plays
    obtain ⟨puffle, blocks⟩ := h.safe playing
    obtain puffle' | turn := step.puffleSafe h.paired puffle
    · obtain blocks' | turn := step.blocksSafe h.paired (h.occupancy playing) blocks
      · exact ⟨puffle', blocks'⟩
      · exact turned turn
    · exact turned turn
  · exact turned turn

end Game

/-! ## Runs -/

section
variable {levels : List Level} {rules : Rules} {seed : UInt64} {g₀ : Game} {r : Run}

theorem Run.Reachable.onTerrain (new : Game.new levels rules seed = .ok g₀)
    (uncrowded : ∀ l ∈ levels, l.Uncrowded) (grounded : ∀ l ∈ levels, l.Grounded rules)
    (h : Run.Reachable g₀ r) : r.game.OnTerrain levels rules := by
  have unstarted := Game.unstarted_of_new new
  have idle {P : Prop} (playing : g₀.phase = .playing) : P := by
    cases unstarted.phase.symm.trans playing
  apply h.game_invariant unstarted.silent
  · exact ⟨unstarted.loaded, unstarted.rules_eq, Run.Reachable.start.keyed new,
      (Game.portals_of_empty unstarted.board).paired, idle, idle⟩
  · intro g terrain
    refine ⟨terrain.loaded, terrain.rules_eq, terrain.keyed, terrain.paired, fun playing => ?_,
      fun playing => ?_⟩
    · exact (terrain.occupancy playing).sameGround (.of_board rfl rfl rfl) rfl
        (terrain.occupancy playing).clear
    · obtain ⟨puffle, blocks⟩ := terrain.safe playing
      exact ⟨⟨puffle.inside, puffle.stands, puffle.walks⟩, blocks⟩
  · intro g g' step
    exact step.onTerrain uncrowded grounded

/-- Nobody leaves the board: every move leads to a neighbour of its owner's cell and is not over
yet. The puffle is never on ground, or on its way to ground, that the rules forbid, and no block in
water or in a wall of the secret. -/
theorem bodies_on_terrain (new : Game.new levels rules seed = .ok g₀)
    (accepted : ∀ l ∈ levels, l.Accepted)
    (distinct : ∀ l ∈ levels, l.blocks.Nodup ∧ l.spawn ∉ l.blocks)
    (spawn : ∀ l ∈ levels, ∀ alt, rules.forbids ((l.variant alt).tileAt l.spawn) = false)
    (blocks : ∀ l ∈ levels, ∀ alt, ∀ c ∈ l.blocks,
      (l.variant alt).tileAt c ≠ .water ∧ (l.variant alt).tileAt c ≠ .fakeImpassableWall)
    (h : Run.Reachable g₀ r) (playing : r.game.phase = .playing) :
    r.game.puffle.pos.OnBoard ∧
    (∀ m, r.game.puffle.motion = some m →
      m.source = r.game.puffle.pos ∧ m.target = r.game.puffle.pos.step m.dir ∧
      m.target.OnBoard ∧ m.elapsed < m.duration) ∧
    (∀ b ∈ r.game.blocks, ∀ m, b.motion = some m →
      m.source = b.pos ∧ m.target = b.pos.step m.dir ∧ m.target.OnBoard ∧
      m.elapsed < m.duration) ∧
    (∀ m, r.game.puffle.motion = some m →
      ∃ k, r.game.board.kind? m.target = some k ∧ rules.forbids k = false) ∧
    (r.game.puffle.motion = none →
      ∃ k, r.game.board.kind? r.game.puffle.pos = some k ∧ rules.forbids k = false) ∧
    ∀ b ∈ r.game.blocks,
      ∃ k, r.game.board.kind? b.target = some k ∧ k ≠ .water ∧ k ≠ .fakeImpassableWall := by
  have uncrowded := Level.uncrowded_of_accepted accepted distinct
  have grounded : ∀ l ∈ levels, l.Grounded rules := fun l hl => ⟨spawn l hl, blocks l hl⟩
  have terrain := h.onTerrain new uncrowded grounded
  obtain ⟨puffle, firm⟩ := terrain.safe playing
  rw [← terrain.rules_eq]
  refine ⟨puffle.inside, fun m moves => ?_, fun b hb m moves => ?_, fun m moves => ?_,
    puffle.stands, fun b hb => (firm b hb).1⟩
  · obtain ⟨leads, _⟩ := puffle.walks m moves
    exact ⟨leads.source, leads.target, leads.inside, leads.going⟩
  · have leads := (firm b hb).2 m moves
    exact ⟨leads.source, leads.target, leads.inside, leads.going⟩
  · exact (puffle.walks m moves).2

end

/-- A block on the way to the water. -/
def shore : Level where
  origin := .zero
  spawn := .zero
  tiles := .set (.filled 5 1 .ice) 4 0 .water
  keys := []
  blocks := [⟨1, 0⟩]
  bag := none
  patches := []

theorem shore_accepted : shore.Accepted := by decide

/-- The puffle is still on its way, and the block has slid up to the water. -/
theorem bodies_on_terrain_at_shore :
    ∃ g₀ r, Game.new [shore] { Rules.standard with puffleMoveTicks := 9 } 0 = .ok g₀ ∧
      Run.Reachable g₀ r ∧ r.game.phase = .playing ∧
      r.game.puffle.motion = some ⟨⟨0, 0⟩, ⟨1, 0⟩, .right, 8, 9⟩ ∧
      r.game.blocks = [⟨⟨3, 0⟩, none, none⟩] ∧ r.game.board.kind? ⟨4, 0⟩ = some .water ∧
      r.game.puffle.pos.OnBoard ∧
      (∃ k, r.game.board.kind? ⟨1, 0⟩ = some k ∧ Rules.standard.forbids k = false) ∧
      ∃ k, r.game.board.kind? ⟨3, 0⟩ = some k ∧ k ≠ .water ∧ k ≠ .fakeImpassableWall := by
  obtain ⟨g₀, new⟩ : ∃ g₀, Game.new [shore] { Rules.standard with puffleMoveTicks := 9 } 0 =
      .ok g₀ := ⟨_, rfl⟩
  let r := (.start 1 :: List.replicate 8 (.tick (.hold .right))).foldl Run.act (.start g₀)
  have reached : Run.Reachable g₀ r := .actions _
  have played : r.game.phase = .playing ∧
      r.game.puffle.motion = some ⟨⟨0, 0⟩, ⟨1, 0⟩, .right, 8, 9⟩ ∧
      r.game.blocks = [⟨⟨3, 0⟩, none, none⟩] ∧ r.game.board.kind? ⟨4, 0⟩ = some .water := by
    cases new
    decide +kernel
  obtain ⟨playing, moves, blocks, water⟩ := played
  have accepted : ∀ l ∈ [shore], l.Accepted := by simpa using shore_accepted
  obtain ⟨inside, _, _, ahead, _, firm⟩ := bodies_on_terrain new accepted (by decide)
    (by decide) (by decide) reached playing
  exact ⟨g₀, r, new, reached, playing, moves, blocks, water, inside, ahead _ moves,
    firm ⟨⟨3, 0⟩, none, none⟩ (by rw [blocks]; exact List.mem_singleton_self _)⟩

end IceMaze
