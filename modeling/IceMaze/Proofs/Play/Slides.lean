import IceMaze.Proofs.Play.Landing
import IceMaze.Proofs.Play.Pace
import IceMaze.Proofs.Play.Terrain
import IceMaze.Proofs.Rules.Validation

/-!
Where a block stops that has been pushed.

How far it goes can be read off the row ahead before the push (`Travels`): the blocks beside it do
not move, and the puffle changes no tile but the one that it leaves and the one that it enters.
`Pushing` says what the game is like until everything rests; each part of a tick keeps it, and so
does idling. Where it rests, the block has gone all the way.
-/

namespace IceMaze

/-! ## Rows -/

namespace Coord

variable {c : Coord} {d : Direction} {m n : Nat}

/-- The cell so many steps away in a direction. -/
def along (c : Coord) (d : Direction) (n : Nat) : Coord :=
  ⟨c.x + n * d.delta.x, c.y + n * d.delta.y⟩

@[simp] theorem along_zero (c : Coord) (d : Direction) : c.along d 0 = c := by
  simp [along]

theorem step_along (c : Coord) (d : Direction) (n : Nat) :
    (c.along d n).step d = c.along d (n + 1) := by
  cases d <;> simp only [along, step, Direction.delta, mk.injEq] <;> omega

theorem along_of_step (c : Coord) (d : Direction) (n : Nat) :
    (c.step d).along d n = c.along d (n + 1) := by
  cases d <;> simp only [along, step, Direction.delta, mk.injEq] <;> omega

theorem along_inj : c.along d m = c.along d n ↔ m = n := by
  cases d <;> simp only [along, Direction.delta, mk.injEq] <;> omega

theorem along_succ_ne : c.along d (n + 1) ≠ c := by
  intro same
  have := along_inj.1 (same.trans (along_zero c d).symm)
  omega

/-- A row leaves the board at some time. -/
theorem not_onBoard_along (inside : c.OnBoard) : ¬(c.along d 19).OnBoard := by
  rw [onBoard_iff] at inside ⊢
  cases d <;> simp only [along, Direction.delta] <;> omega

end Coord

theorem Rules.forbids_eq_false {rules : Rules} {k : TileKind} :
    rules.forbids k = false ↔
      k ∉ [.wall, .water, .fakeImpassableWall] ∧ (rules.solidHoles = true → k ≠ .blockHole) := by
  cases k <;> simp [forbids, TileKind.isImpassable]

namespace Game

open Board

variable {g f f' : Game} {c : Coord} {d : Direction} {i k : Nat}

/-! ## How far -/

/-- A block can come to lie on the cell, and none lies there. -/
structure Clear (g : Game) (c : Coord) : Prop where
  ground : ∃ k, g.board.kind? c = some k ∧ k ∉ [.wall, .water, .fakeImpassableWall] ∧
    (g.rules.solidHoles = true → k ≠ .blockHole)
  bare : ∀ b ∈ g.blocks, b.pos ≠ c

/-- A block pushed from the cell goes so many cells on: one, or all that are clear. -/
structure Travels (g : Game) (c : Coord) (d : Direction) (k : Nat) : Prop where
  single : g.rules.momentum = .single → k = 1
  slide : g.rules.momentum = .slide →
    IsGreatest {k | ∀ j, 1 ≤ j → j ≤ k → g.Clear (c.along d j)} k

theorem clear_iff : g.Clear c ↔ g.Admits c ∧ ∀ b ∈ g.blocks, b.pos ≠ c := by
  constructor
  · rintro ⟨⟨k, kind, open_⟩, bare⟩
    exact ⟨⟨k, kind, Rules.forbids_eq_false.2 open_⟩, bare⟩
  · rintro ⟨⟨k, kind, open_⟩, bare⟩
    exact ⟨⟨k, kind, Rules.forbids_eq_false.1 open_⟩, bare⟩

/-- Only the rules, the board and the blocks matter. -/
theorem Travels.congr {h : Game} (travels : g.Travels c d k) (rules : h.rules = g.rules)
    (board : h.board = g.board) (blocks : h.blocks = g.blocks) : h.Travels c d k := by
  have same (e : Coord) : h.Clear e ↔ g.Clear e := by
    rw [clear_iff, clear_iff, Admits, Admits, rules, board, blocks]
  refine ⟨fun single => travels.single (rules ▸ single), fun slide => ?_⟩
  simp only [same]
  exact travels.slide (rules ▸ slide)

theorem exists_travels (inside : c.OnBoard) : ∃ k, g.Travels c d k := by
  classical
  cases momentum : g.rules.momentum with
  | single => exact ⟨1, fun _ => rfl, by rw [momentum]; nofun⟩
  | slide =>
    have blocked : ∃ n, ¬g.Clear (c.along d (n + 1)) := by
      refine ⟨18, fun clear => Coord.not_onBoard_along inside (d := d) ?_⟩
      exact (clear_iff.1 clear).1.onBoard
    refine ⟨Nat.find blocked, by rw [momentum]; nofun, fun _ => ⟨fun j first within => ?_, ?_⟩⟩
    · have clear := Nat.find_min blocked (m := j - 1) (by omega)
      rw [not_not, Nat.sub_add_cancel first] at clear
      exact clear
    · intro k clear
      by_contra further
      exact Nat.find_spec blocked (clear _ (by omega) (by omega))

theorem Travels.clear_iff (h : g.Travels c d k) (slides : g.rules.momentum = .slide) {n : Nat}
    (within : n ≤ k) : g.Clear (c.along d (n + 1)) ↔ n < k := by
  obtain ⟨clear, most⟩ := h.slide slides
  constructor
  · intro next
    by_contra ended
    have further : k + 1 ≤ k := most fun j first within => by
      by_cases last : j = k + 1
      · have same : k = n := by omega
        rwa [last, same]
      · exact clear j first (by omega)
    omega
  · exact fun short => clear _ (by omega) (by omega)

theorem Travels.pos (h : g.Travels c d k) (clear : g.Clear (c.along d 1)) : 0 < k := by
  cases momentum : g.rules.momentum with
  | single => have := h.single momentum; omega
  | slide => exact (h.clear_iff momentum (Nat.zero_le k)).1 clear

theorem Occupancy.canPush_iff (h : g.Occupancy) :
    g.canPush c d = true ↔ g.puffleHolds (c.step d) = false ∧ g.Admits (c.step d) ∧
      ∀ b ∈ g.blocks, b.target ≠ c.step d := by
  have free : g.blockAt (c.step d) = none ↔ ∀ b ∈ g.blocks, b.target ≠ c.step d := by
    constructor
    · intro free b here
      obtain ⟨j, there⟩ := List.getElem?_of_mem here
      exact target_ne_of_blockAt free there
    · intro apart
      by_contra held
      obtain ⟨j, held⟩ := Option.ne_none_iff_exists'.1 held
      obtain ⟨b, there, target⟩ := h.blockAt_iff.1 held
      exact apart b (List.mem_of_getElem? there) target
  rw [← free]
  unfold canPush Admits
  simp only [Bool.and_eq_true, Bool.not_eq_true']
  cases g.board.kind? (c.step d) <;> simp

/-! ## On the way -/

/-- What a block can be like that goes `k` cells on from a cell. -/
inductive Slid (rules : Rules) (c : Coord) (d : Direction) (k : Nat) : Block → Prop where
  | goes {n m} (short : n < k) (target : m.target = c.along d (n + 1)) (dir : m.dir = d) :
      Slid rules c d k ⟨c.along d n, some m, none⟩
  | lands {n} (slides : rules.momentum = .slide) (within : n ≤ k) :
      Slid rules c d k ⟨c.along d n, none, some d⟩
  | rests : Slid rules c d k ⟨c.along d k, none, none⟩

/-- The cell that the puffle is about to enter holds a block, all blocks are at rest, and this one
can go `k` cells on. -/
structure Pushes (g : Game) (d : Direction) (i k : Nat) : Prop where
  calm : ∀ b ∈ g.blocks, b.motion = none ∧ b.momentum = none
  there : ∃ b, g.blocks[i]? = some b ∧ b.pos = g.puffle.pos.step d
  travels : g.Travels (g.puffle.pos.step d) d k

/-- The puffle of `g` has pushed the block, and this is what has become of the game. -/
structure Pushing (g : Game) (d : Direction) (i k : Nat) (f : Game) : Prop where
  setting : f.setting = g.setting
  unlinked : f.Unlinked
  kinds : ∀ n, f.board.kind? ((g.puffle.pos.step d).along d (n + 1)) =
    g.board.kind? ((g.puffle.pos.step d).along d (n + 1))
  puffle : f.puffle.motion = none ∧ f.puffle.pos = g.puffle.pos.step d ∨
    ∃ m, f.puffle.motion = some m ∧ m.target = g.puffle.pos.step d ∧ f.puffle.pos = g.puffle.pos
  short : f.board.kind? (g.puffle.pos.step d) ≠ some .goal
  others : ∀ j, j ≠ i → f.blocks[j]? = g.blocks[j]?
  block : ∃ b, f.blocks[i]? = some b ∧ Slid g.rules (g.puffle.pos.step d) d k b

theorem pos_reach (g : Game) (c : Coord) : ((g.arrive c).takeBag c).puffle.pos = c := by
  rw [puffle_takeBag]
  rfl

namespace Pushing

/-- The cells ahead of the block are never those of the puffle. -/
theorem puffleHolds (h : g.Pushing d i k f) (n : Nat) :
    f.puffleHolds ((g.puffle.pos.step d).along d (n + 1)) = false := by
  have behind : (g.puffle.pos.step d).along d (n + 1) ≠ g.puffle.pos := by
    rw [Coord.along_of_step]
    exact Coord.along_succ_ne
  rw [puffleHolds_eq_false]
  obtain ⟨rests, pos⟩ | ⟨m, moves, target, pos⟩ := h.puffle
  · rw [pos, rests]
    exact ⟨Coord.along_succ_ne, nofun⟩
  · refine ⟨pos ▸ behind, fun m' moves' => ?_⟩
    cases moves.symm.trans moves'
    exact target ▸ Coord.along_succ_ne

theorem congr (h : g.Pushing d i k f) (setting : f'.setting = f.setting)
    (board : f'.board = f.board) (puffle : f'.puffle = f.puffle) (blocks : f'.blocks = f.blocks) :
    g.Pushing d i k f' where
  setting := setting.trans h.setting
  unlinked := ⟨board ▸ h.unlinked.paired, board ▸ h.unlinked.link?⟩
  kinds n := by rw [board, h.kinds]
  puffle := by rw [puffle]; exact h.puffle
  short := by rw [board]; exact h.short
  others := by rw [blocks]; exact h.others
  block := by rw [blocks]; exact h.block

/-- Only the pushed block changes. -/
theorem replace (h : g.Pushing d i k f) {b : Block} (plays : f.PlaysOn f')
    (kind : ∀ c, f'.board.kind? c = f.board.kind? c) (puffle : f'.puffle = f.puffle)
    (blocks : f'.blocks = f.blocks.set i b) (slid : Slid g.rules (g.puffle.pos.step d) d k b) :
    g.Pushing d i k f' where
  setting := plays.setting.trans h.setting
  unlinked := plays.unlinked h.unlinked
  kinds n := (kind _).trans (h.kinds n)
  puffle := by rw [puffle]; exact h.puffle
  short := by rw [kind]; exact h.short
  others j other := by rw [blocks, List.getElem?_set_ne (Ne.symm other), h.others j other]
  block := by
    obtain ⟨a, here, _⟩ := h.block
    have bound := (List.getElem?_eq_some_iff.1 here).1
    exact ⟨b, by simp [blocks, bound], slid⟩

/-- Whether the block can go on depends on the row ahead as it was before the push. -/
theorem canPush_iff (h : g.Pushing d i k f) (base : g.Pushes d i k) (occupancy : f.Occupancy)
    {n : Nat} (here : f.blocks[i]? = some ⟨(g.puffle.pos.step d).along d n, none, some d⟩) :
    (f.setBlock i ⟨(g.puffle.pos.step d).along d n, none, none⟩).canPush
        ((g.puffle.pos.step d).along d n) d = true ↔
      g.Clear ((g.puffle.pos.step d).along d (n + 1)) := by
  let dropped := f.setBlock i ⟨(g.puffle.pos.step d).along d n, none, none⟩
  have own : dropped.blocks[i]? = some ⟨(g.puffle.pos.step d).along d n, none, none⟩ :=
    getElem?_setBlock here
  have others {j : Nat} (other : j ≠ i) : dropped.blocks[j]? = g.blocks[j]? :=
    (List.getElem?_set_ne (Ne.symm other)).trans (h.others j other)
  have bare : (∀ b ∈ dropped.blocks, b.target ≠ (g.puffle.pos.step d).along d (n + 1)) ↔
      ∀ b ∈ g.blocks, b.pos ≠ (g.puffle.pos.step d).along d (n + 1) := by
    constructor
    · intro free b mem
      obtain ⟨j, there⟩ := List.getElem?_of_mem mem
      by_cases pushed : j = i
      · obtain ⟨a, first, pos⟩ := base.there
        subst pushed
        cases first.symm.trans there
        rw [pos]
        exact Coord.along_succ_ne.symm
      · have still := target_of_rests (base.calm b mem).1
        exact still ▸ free b (List.mem_of_getElem? ((others pushed).trans there))
    · intro free b mem
      obtain ⟨j, there⟩ := List.getElem?_of_mem mem
      by_cases pushed : j = i
      · subst pushed
        cases own.symm.trans there
        exact fun same => absurd (Coord.along_inj.1 same) (by omega)
      · have before := List.mem_of_getElem? ((others pushed).symm.trans there)
        have still := target_of_rests (base.calm b before).1
        exact still ▸ free b before
  have admits : dropped.Admits ((g.puffle.pos.step d).along d (n + 1)) ↔
      g.Admits ((g.puffle.pos.step d).along d (n + 1)) := by
    have board : dropped.board = f.board := rfl
    have rules : dropped.rules = g.rules := rules_of_setting h.setting
    unfold Admits
    rw [board, h.kinds, rules]
  have holds : dropped.puffleHolds ((g.puffle.pos.step d).along d (n + 1)) = false :=
    h.puffleHolds n
  have occupancy' : dropped.Occupancy := occupancy.setBlock here rfl rfl Iff.rfl
  rw [occupancy'.canPush_iff, Coord.step_along, clear_iff, admits, bare]
  exact ⟨fun free => free.2, fun free => ⟨holds, free⟩⟩

/-- A block with momentum goes on as long as the row ahead is clear. -/
theorem restartBlock (h : g.Pushing d i k f) (base : g.Pushes d i k) (occupancy : f.Occupancy) :
    g.Pushing d i k (f.restartBlock i) := by
  have plays := PlaysOn.restartBlock f i
  obtain ⟨b, here, slid⟩ := h.block
  cases slid with
  | goes | rests =>
    have same : f.restartBlock i = f := by simp [Game.restartBlock, here, Block.isMoving]
    rwa [same]
  | @lands n slides within =>
    let dropped := f.setBlock i ⟨(g.puffle.pos.step d).along d n, none, none⟩
    have own : dropped.blocks[i]? = some ⟨(g.puffle.pos.step d).along d n, none, none⟩ :=
      getElem?_setBlock here
    have restarted : f.restartBlock i =
        if dropped.canPush ((g.puffle.pos.step d).along d n) d then dropped.pushBlock i d
        else dropped := by
      simp only [Game.restartBlock, here, Block.isMoving, Option.isSome_none, Bool.false_eq_true,
        if_false]
      rfl
    have onward := (h.canPush_iff base occupancy here).trans (base.travels.clear_iff slides within)
    rw [restarted] at plays ⊢
    by_cases short : n < k
    · rw [if_pos (onward.2 short)] at plays ⊢
      have blocks := (blocks_pushBlock d own).trans (List.set_set ..)
      refine h.replace plays (fun c => kind?_pushBlock d c) (puffle_pushBlock d) blocks ?_
      exact .goes short (Coord.step_along _ d n) rfl
    · rw [if_neg fun free => short (onward.1 free)] at plays ⊢
      have ended : n = k := by omega
      subst ended
      exact h.replace plays (fun _ => rfl) rfl rfl .rests

/-- The move of the block goes on, or ends on the next cell of the row. -/
theorem stepBlock (h : g.Pushing d i k f) (base : g.Pushes d i k) :
    g.Pushing d i k (f.stepBlock i) := by
  have plays := PlaysOn.stepBlock f i
  have rules : f.rules = g.rules := rules_of_setting h.setting
  obtain ⟨b, here, slid⟩ := h.block
  cases slid with
  | lands | rests =>
    have same : f.stepBlock i = f := by simp [Game.stepBlock, here]
    rwa [same]
  | @goes n m short target dir =>
    cases done : m.step.isDone with
    | true =>
      have exit : (f.setBlock i ⟨(g.puffle.pos.step d).along d n, none, none⟩).blockExit? m.target =
          none := by
        by_contra linked
        obtain ⟨c, linked⟩ := Option.ne_none_iff_exists'.1 linked
        cases (h.unlinked.link? m.target).symm.trans (blockExit?_eq_some linked).1
      have blocks := blocks_stepBlock_of_no_exit here rfl done exit
      have landed := stepBlock_of_done here rfl done
      refine h.replace plays (fun c => ?_) ?_ blocks ?_
      · rw [landed, kind?_landBlock]
      · rw [landed, puffle_landBlock]
      · rw [rules, target, dir]
        cases momentum : g.rules.momentum with
        | single =>
          have last := base.travels.single momentum
          have next : n + 1 = k := by omega
          rw [next]
          exact .rests
        | slide => exact .lands momentum short
    | false =>
      have glides : f.stepBlock i =
          f.setBlock i ⟨(g.puffle.pos.step d).along d n, some m.step, none⟩ := by
        simp [Game.stepBlock, here, done]
      rw [glides] at plays ⊢
      refine h.replace plays (fun _ => rfl) rfl rfl ?_
      exact .goes short ((target_step m).trans target) (Motion.dir_step.trans dir)

/-- The other blocks let their turns pass. -/
theorem advanceBlocks (h : g.Pushing d i k f) (base : g.Pushes d i k) (occupancy : f.Occupancy) :
    g.Pushing d i k f.advanceBlocks := by
  have pass {e : Game} (pushing : g.Pushing d i k e) {j : Nat} (other : j ≠ i) :
      e.advanceBlock j = e := by
    apply advanceBlock_of_calm
    intro b there
    exact base.calm b (List.mem_of_getElem? ((pushing.others j other).symm.trans there))
  have turn : g.Pushing d i k (f.advanceBlock i) := (h.restartBlock base occupancy).stepBlock base
  have before (n : Nat) (early : n ≤ i) : f.advanceUpTo n = f := by
    induction n with
    | zero => rfl
    | succ n ih => rw [advanceUpTo_succ, ih (by omega), pass h (by omega)]
  have after (n : Nat) (late : i < n) : f.advanceUpTo n = f.advanceBlock i := by
    induction n with
    | zero => omega
    | succ n ih =>
      rw [advanceUpTo_succ]
      by_cases now : n = i
      · rw [before n (by omega), now]
      · rw [ih (by omega), pass turn now]
  obtain ⟨b, here, _⟩ := h.block
  have all : f.advanceBlocks = f.advanceBlock i := after _ (List.getElem?_eq_some_iff.1 here).1
  rwa [all]

theorem heading (h : g.Pushing d i k f) {m : Motion} (moves : f.puffle.motion = some m) :
    m.target = g.puffle.pos.step d ∧ f.puffle.pos = g.puffle.pos := by
  obtain ⟨rests, _⟩ | ⟨_, moves', heading⟩ := h.puffle
  · cases rests.symm.trans moves
  · cases moves.symm.trans moves'
    exact heading

/-- The puffle enters the cell that the block has left. -/
theorem advance (h : g.Pushing d i k f) (advance : Advance f f') (plays : f.PlaysOn f') :
    g.Pushing d i k f' := by
  have setting := plays.setting.trans h.setting
  have unlinked := plays.unlinked h.unlinked
  have keep (kinds : ∀ c, f'.board.kind? c = f.board.kind? c) (blocks : f'.blocks = f.blocks)
      (puffle : f'.puffle.motion = none ∧ f'.puffle.pos = g.puffle.pos.step d ∨
        ∃ m, f'.puffle.motion = some m ∧ m.target = g.puffle.pos.step d ∧
          f'.puffle.pos = g.puffle.pos) : g.Pushing d i k f' :=
    ⟨setting, unlinked, fun n => (kinds _).trans (h.kinds n), puffle, by rw [kinds]; exact h.short,
      by rw [blocks]; exact h.others, by rw [blocks]; exact h.block⟩
  cases advance with
  | rest => exact h
  | @walk m moves =>
    obtain ⟨target, pos⟩ := h.heading moves
    exact keep (fun _ => rfl) rfl (.inr ⟨m.step, rfl, (target_step m).trans target, pos⟩)
  | leaveBoard moves => exact keep (fun _ => rfl) rfl (.inl ⟨rfl, (h.heading moves).1⟩)
  | @reachGoal m t moves _ here goal =>
    have kind : f.board.kind? m.target = some .goal := by
      rw [Board.kind?, here, Option.map_some, goal]
    exact absurd ((h.heading moves).1 ▸ kind) h.short
  | @enterLock m _ moves =>
    obtain ⟨target, _⟩ := h.heading moves
    have kinds (c : Coord) : ((((f.arrive m.target).takeBag
        m.target).openLock m.target).takeKey m.target).awaitStuckCheck.board.kind? c =
          if c = m.target ∧ m.target.OnBoard then some .ice else f.board.kind? c := by
      rw [(SameGround.search m.target).kind?, board_openLock, kind?_changeTile,
        (SameGround.reach m.target).kind?]
    refine ⟨setting, unlinked, fun n => ?_, .inl ⟨by simp, ?_⟩, ?_, ?_, ?_⟩
    · rw [kinds, target, if_neg fun here => Coord.along_succ_ne here.1]
      exact h.kinds n
    · have opened : (((f.arrive m.target).takeBag m.target).openLock m.target).puffle.pos =
          m.target := pos_reach f m.target
      exact (pos_takeKey _).trans (opened.trans target)
    · rw [kinds]
      split
      · simp
      · exact h.short
    · rw [blocks_enterLock]
      exact h.others
    · rw [blocks_enterLock]
      exact h.block
  | @enterTeleporter m t c moves _ here _ _ linked =>
    have link : f.board.link? m.target = some c := by
      rw [link?, here]
      exact linked
    cases (h.unlinked.link? m.target).symm.trans link
  | @enterPlain m _ moves =>
    obtain ⟨target, _⟩ := h.heading moves
    refine keep (fun c => ?_) (blocks_enterPlain _) (.inl ⟨by simp, ?_⟩)
    · exact ((SameGround.search m.target).kind? c).trans ((SameGround.reach m.target).kind? c)
    · exact ((pos_takeKey _).trans (pos_reach f m.target)).trans target

/-- The puffle sets off. -/
theorem startMove (base : g.Pushes d i k) (occupancy : g.Occupancy) (unlinked : g.Unlinked)
    (free : g.canMove d = true) (ahead : g.blockAt (g.puffle.pos.step d) = some i)
    (button : g.board.kind? (g.puffle.pos.step d) ≠ some .button)
    (goal : g.board.kind? (g.puffle.pos.step d) ≠ some .goal) :
    g.Pushing d i k (g.startMove d) := by
  have plays := PlaysOn.startMove g d
  have puffle := puffle_startMove (g := g) d
  obtain ⟨b, here, pos⟩ := base.there
  have blocks := blocks_startMove_of_block occupancy ahead here
  have bound := (List.getElem?_eq_some_iff.1 here).1
  have clear : g.Clear ((g.puffle.pos.step d).along d 1) := by
    obtain ⟨_, _, _, pushable⟩ := canPush_of_canMove free ahead
    obtain ⟨_, admits, bare⟩ := occupancy.canPush_iff.1 pushable
    rw [← Coord.step_along, Coord.along_zero]
    refine clear_iff.2 ⟨admits, fun a own => ?_⟩
    exact target_of_rests (base.calm a own).1 ▸ bare a own
  have goes : Slid g.rules (g.puffle.pos.step d) d k (g.pushed b d) := by
    obtain ⟨c, _, _⟩ := b
    cases (show c = g.puffle.pos.step d from pos)
    have target := Coord.step_along (g.puffle.pos.step d) d 0
    rw [Coord.along_zero] at target
    let m : Motion := .start (g.puffle.pos.step d) ((g.puffle.pos.step d).step d) d
      g.rules.blockMoveTicks
    have goes : Slid g.rules (g.puffle.pos.step d) d k
        ⟨(g.puffle.pos.step d).along d 0, some m, none⟩ :=
      .goes (base.travels.pos clear) target rfl
    rwa [Coord.along_zero] at goes
  exact {
    setting := plays.setting
    unlinked := plays.unlinked unlinked
    kinds := fun n => by
      have away : (g.puffle.pos.step d).along d (n + 1) ≠ g.puffle.pos := by
        rw [Coord.along_of_step]
        exact Coord.along_succ_ne
      rw [kind?_startMove d away, if_neg button]
    puffle := .inr ⟨_, congrArg Puffle.motion puffle, rfl, by rw [puffle]⟩
    short := by
      rw [kind?_startMove_ahead]
      exact goal
    others := fun j other => by rw [blocks, List.getElem?_set_ne (Ne.symm other)]
    block := ⟨g.pushed b d, by simp [blocks, bound], goes⟩ }

/-! ## Ticks -/

/-- A tick after which the puffle has not been set back. -/
theorem tick {input : Input} (base : g.Pushes d i k) (playing : f.phase = .playing)
    (going : input.reset = false) (keyed : f.Keyed)
    (occupancy : ({ f with events := [], ticks := f.ticks + 1 }.steer input).Occupancy)
    (h : g.Pushing d i k ({ f with events := [], ticks := f.ticks + 1 }.steer input)) :
    (∃ c, .stuck c ∈ (f.tick input).events) ∨ g.Pushing d i k (f.tick input) := by
  have approached : g.Pushing d i k (f.approach input) := h.advanceBlocks base occupancy
  have short : f.reachesGoal input = false := by
    rw [Bool.eq_false_iff]
    intro reaches
    obtain ⟨c, lands, goal⟩ := reachesGoal_iff.1 reaches
    obtain ⟨_, m, moves, _, rfl⟩ := landsOn?_eq_some.1 lands
    exact approached.short ((approached.heading moves).1 ▸ goal)
  have advanced := (f.approach input).advance_advancePuffle
  have plays : (f.approach input).PlaysOn (f.beforeCheck input) :=
    advanced.plays (keyed_approach playing keyed) fun _ => short_of_goal playing going short
  have entered : g.Pushing d i k (f.beforeCheck input) := approached.advance advanced plays
  rw [tick_eq playing going]
  obtain ⟨_, same⟩ | ⟨_, _, _, ⟨_, same⟩ | ⟨_, same⟩⟩ := (f.beforeCheck input).checkStuck_cases
  · rw [same]
    exact .inr entered
  · rw [same]
    exact .inr (entered.congr rfl rfl rfl rfl)
  · left
    rw [same, events_resetLevel, events_reportStuck]
    exact ⟨_, List.mem_append_left _ (List.mem_append_right _ (List.mem_singleton_self _))⟩

theorem tick_idle (h : g.Pushing d i k f) (base : g.Pushes d i k) (playing : f.phase = .playing)
    (keyed : f.Keyed) (occupancy : f.Occupancy) :
    (∃ c, .stuck c ∈ (f.tick .idle).events) ∨ g.Pushing d i k (f.tick .idle) := by
  apply tick base playing rfl keyed
  · rw [steer_idle]
    exact occupancy.sameGround (.of_board rfl rfl rfl) rfl occupancy.clear
  · rw [steer_idle]
    exact h.congr rfl rfl rfl rfl

/-- Where everything rests, the block has gone all the way. -/
theorem settled (h : g.Pushing d i k f) (settled : f.isSettled = true) :
    f.puffle.pos = g.puffle.pos.step d ∧
      f.blocks[i]? = some ⟨(g.puffle.pos.step d).along d k, none, none⟩ := by
  obtain ⟨rests, calm⟩ := isSettled_iff.1 settled
  constructor
  · obtain ⟨_, pos⟩ | ⟨m, moves, _⟩ := h.puffle
    · exact pos
    · cases rests.symm.trans moves
  · obtain ⟨b, here, slid⟩ := h.block
    obtain ⟨still, quiet⟩ := calm b (List.mem_of_getElem? here)
    cases slid with
    | goes => cases still
    | lands => cases quiet
    | rests => exact here

end Pushing

end Game

/-! ## Runs -/

theorem Run.isAtRest_settle {r : Run} {n limit : Nat} (enough : n ≤ limit)
    (ends : (Run.ticks .idle n r).isAtRest = true) : (r.settle limit).isAtRest = true := by
  induction limit generalizing r n with
  | zero =>
    have same : n = 0 := by omega
    subst same
    exact ends
  | succ limit ih =>
    rw [settle]
    split
    · assumption
    · rename_i restless
      cases n with
      | zero => exact absurd ends restless
      | succ n => exact ih (by omega) ends

theorem Run.exists_events_settle (r : Run) (limit : Nat) :
    ∃ es, (r.settle limit).events = r.events ++ es := by
  induction limit generalizing r with
  | zero => exact ⟨[], (List.append_nil _).symm⟩
  | succ limit ih =>
    rw [settle]
    split
    · exact ⟨[], (List.append_nil _).symm⟩
    · obtain ⟨es, events⟩ := ih (r.tick .idle)
      exact ⟨(r.game.tick .idle).events ++ es, by rw [events, tick, List.append_assoc]⟩

section
variable {levels : List Level} {rules : Rules} {seed : UInt64} {g₀ g : Game} {r : Run}
  {d : Direction} {i k : Nat}

/-- The push goes on while the game idles, unless it is told that the puffle is stuck. -/
theorem Run.Reachable.pushing_settle (new : Game.new levels rules seed = .ok g₀)
    (uncrowded : ∀ l ∈ levels, l.Uncrowded) (base : g.Pushes d i k) (playing : g.phase = .playing)
    (h : Run.Reachable g₀ r) (pushing : g.Pushing d i k r.game) (limit : Nat) :
    ∃ es, (r.settle limit).events = r.events ++ es ∧
      ((∃ c, .stuck c ∈ es) ∨ g.Pushing d i k (r.settle limit).game) := by
  induction limit generalizing r with
  | zero => exact ⟨[], (List.append_nil _).symm, .inr pushing⟩
  | succ limit ih =>
    rw [Run.settle]
    split
    · exact ⟨[], (List.append_nil _).symm, .inr pushing⟩
    · have playing' := (Game.phase_of_setting pushing.setting).trans playing
      have occupancy := h.occupancy new uncrowded playing'
      have told (es : List Event) :
          r.events ++ ((r.game.tick .idle).events ++ es) = (r.tick .idle).events ++ es :=
        (List.append_assoc ..).symm
      obtain ⟨c, stuck⟩ | next := pushing.tick_idle base playing' (h.keyed new) occupancy
      · obtain ⟨es, events⟩ := (r.tick .idle).exists_events_settle limit
        exact ⟨_, events.trans (told es).symm, .inl ⟨c, List.mem_append_left _ stuck⟩⟩
      · obtain ⟨es, events, outcome⟩ := ih (.next (.tick .idle) h) next
        refine ⟨_, events.trans (told es).symm, ?_⟩
        obtain ⟨c, stuck⟩ | pushing' := outcome
        · exact .inl ⟨c, List.mem_append_right _ stuck⟩
        · exact .inr pushing'

/-- Holding the direction of a block begins the push. -/
theorem Run.Reachable.pushing_hold (new : Game.new levels rules seed = .ok g₀)
    (uncrowded : ∀ l ∈ levels, l.Uncrowded) (h : Run.Reachable g₀ r)
    (playing : r.game.phase = .playing) (settled : r.game.isSettled = true)
    (listed : d ∈ rules.priority.toList) (unlinked : r.game.Unlinked)
    (free : r.game.canMove d = true)
    (ahead : r.game.blockAt (r.game.puffle.pos.step d) = some i)
    (button : r.game.board.kind? (r.game.puffle.pos.step d) ≠ some .button)
    (goal : r.game.board.kind? (r.game.puffle.pos.step d) ≠ some .goal)
    (travels : r.game.Travels (r.game.puffle.pos.step d) d k) :
    let g := { r.game with events := [], ticks := r.game.ticks + 1 }
    g.Pushes d i k ∧
      ((∃ c, .stuck c ∈ (r.game.tick (.hold d)).events) ∨
        g.Pushing d i k (r.game.tick (.hold d))) := by
  intro g
  have occupancy := h.occupancy new uncrowded playing
  obtain ⟨rests, calm⟩ := Game.isSettled_iff.1 settled
  have held : g.Occupancy := occupancy.sameGround (.of_board rfl rfl rfl) rfl occupancy.clear
  have base : g.Pushes d i k := by
    obtain ⟨b, here, target⟩ := occupancy.blockAt_iff.1 ahead
    have still := (calm b (List.mem_of_getElem? here)).1
    exact ⟨calm, ⟨b, here, (Game.target_of_rests still).symm.trans target⟩,
      travels.congr rfl rfl rfl⟩
  have heads : g.heads? (.hold d) = some d :=
    Game.heads?_hold (g := g) ((h.rules_eq new).symm ▸ listed) free
  have steered : g.steer (.hold d) = g.startMove d := by
    rw [Game.steer_eq (g := g) playing rests, heads]
  refine ⟨base, Game.Pushing.tick base playing rfl (h.keyed new) ?_ ?_⟩
  · exact steered ▸ held.startMove free
  · exact steered ▸ Game.Pushing.startMove base held ⟨unlinked.paired, unlinked.link?⟩ free ahead
      button goal

/-- Without linked teleporters everything comes to rest in the time of one move of the puffle and as
many moves of a block as the board has columns. -/
theorem Run.Reachable.isAtRest_settle (new : Game.new levels rules seed = .ok g₀)
    (uncrowded : ∀ l ∈ levels, l.Uncrowded) (h : Run.Reachable g₀ r)
    (playing : r.game.phase = .playing) (unlinked : r.game.Unlinked)
    (valid : rules.validate = .ok ()) {limit : Nat}
    (enough : rules.puffleMoveTicks + 19 * rules.blockMoveTicks + 1 ≤ limit) :
    (r.settle limit).isAtRest = true := by
  obtain ⟨_, puffle_paced, blocks_paced, _⟩ := Rules.validate_eq_ok.1 valid
  have inside := (h.occupancy new uncrowded playing).inside
  obtain ⟨n, bound, ends⟩ := h.settles new uncrowded playing unlinked
    (Game.dueIn_of_timed (h.timed new) inside)
  rw [Game.blockTicks, h.rules_eq new] at bound
  exact Run.isAtRest_settle (n := n) (by omega) (by simpa [Run.isAtRest] using ends)

/-- A pushed block stops where the rules and the row ahead say, however long everything takes, if
the puffle is not set back when everything rests. -/
theorem pushed_block_stops (new : Game.new levels rules seed = .ok g₀)
    (accepted : ∀ l ∈ levels, l.Accepted)
    (distinct : ∀ l ∈ levels, l.blocks.Nodup ∧ l.spawn ∉ l.blocks)
    (valid : rules.validate = .ok ()) (h : Run.Reachable g₀ r)
    (playing : r.game.phase = .playing) (settled : r.game.isSettled = true)
    (unlinked : ∀ c, r.game.board.kind? c = some .teleporter → r.game.board.link? c = none)
    (free : r.game.canMove d = true)
    (ahead : r.game.blockAt (r.game.puffle.pos.step d) = some i)
    (button : r.game.board.kind? (r.game.puffle.pos.step d) ≠ some .button)
    (goal : r.game.board.kind? (r.game.puffle.pos.step d) ≠ some .goal) :
    let q := r.game.puffle.pos.step d
    ∃ k, r.game.Travels q d k ∧
      ∀ limit ≥ rules.puffleMoveTicks + 19 * rules.blockMoveTicks + 1,
        let r' := r.move limit (.hold d)
        (∀ c, .stuck c ∉ r'.events.drop r.events.length) →
          r'.game.phase = .playing ∧ r'.game.isSettled = true ∧ r'.game.puffle.pos = q ∧
          (∀ j, j ≠ i → r'.game.blocks[j]? = r.game.blocks[j]?) ∧
          r'.game.blocks[i]? = some ⟨q.along d k, none, none⟩ ∧
          r'.game.board.blockOn? (q.along d k) = some i := by
  intro q
  have uncrowded := Level.uncrowded_of_accepted accepted distinct
  have listed := (Rules.validate_eq_ok.1 valid).listed d
  have linkless : r.game.Unlinked := Game.unlinked_of_bare (h.portals new).paired unlinked
  obtain ⟨k, travels⟩ := Game.exists_travels (g := r.game) (d := d)
    (Game.onBoard_of_canMove free)
  -- the clock and the events of the tick before make no difference to the push
  obtain ⟨base, now⟩ := h.pushing_hold new uncrowded playing settled listed linkless free ahead
    button goal travels
  refine ⟨k, travels, fun limit enough => ?_⟩
  intro r' unstuck
  have reached : Run.Reachable g₀ (r.tick (.hold d)) := .next (.tick (.hold d)) h
  obtain ⟨es, events⟩ := (r.tick (.hold d)).exists_events_settle limit
  have told : r'.events = r.events ++ ((r.game.tick (.hold d)).events ++ es) :=
    events.trans (List.append_assoc ..)
  rw [told, List.drop_left] at unstuck
  have first := now.resolve_left fun ⟨c, stuck⟩ => unstuck c (List.mem_append_left _ stuck)
  obtain ⟨fs, events', outcome⟩ :=
    reached.pushing_settle new uncrowded base playing first limit
  have same : fs = es := List.append_cancel_left (events'.symm.trans events)
  have pushing := outcome.resolve_left fun ⟨c, stuck⟩ =>
    unstuck c (List.mem_append_right _ (same ▸ stuck))
  have playing' : r'.game.phase = .playing := (Game.phase_of_setting pushing.setting).trans playing
  have rest : r'.isAtRest = true := reached.isAtRest_settle new uncrowded
    ((Game.phase_of_setting first.setting).trans playing) first.unlinked valid enough
  have settled' : r'.game.isSettled = true := by
    simpa [Run.isAtRest, playing'] using rest
  obtain ⟨pos, block⟩ := pushing.settled settled'
  have occupancy' := (h.move limit (.hold d)).occupancy new uncrowded playing'
  exact ⟨playing', settled', pos, pushing.others, block,
    (occupancy'.rests _ _).2 ⟨_, block, rfl, rfl⟩⟩

end

theorem Board.link?_eq_none_of_tiles {b : Board}
    (linkless : (b.tiles.toList.all fun t => t.link.isNone) = true) (c : Coord) :
    b.link? c = none := by
  unfold link? get?
  cases index? c with
  | none => rfl
  | some i =>
    have mem : b.tiles[i] ∈ b.tiles.toList := by simp
    simpa using List.all_eq_true.1 linkless _ mem

/-- Three tiles behind the block the alley is walled up. -/
def alley : Level where
  origin := .zero
  spawn := .zero
  tiles := .set (.filled 6 1 .empty) 5 0 .wall
  keys := []
  blocks := [⟨1, 0⟩]
  bag := none
  patches := []

/-- The block slides three tiles on, up to the wall. -/
theorem pushed_block_stops_in_alley :
    ∃ g₀ r, Game.new [alley] .standard 0 = .ok g₀ ∧ Run.Reachable g₀ r ∧
      r.game.isSettled = true ∧ r.game.Travels ⟨1, 0⟩ .right 3 ∧
      (r.move 62 (.hold .right)).game.puffle.pos = ⟨1, 0⟩ ∧
      (r.move 62 (.hold .right)).game.blocks[0]? = some ⟨⟨4, 0⟩, none, none⟩ ∧
      (r.move 62 (.hold .right)).game.board.blockOn? ⟨4, 0⟩ = some 0 := by
  obtain ⟨g₀, new⟩ : ∃ g₀, Game.new [alley] .standard 0 = .ok g₀ := ⟨_, rfl⟩
  let r := (Run.start g₀).act (.start 1)
  have reached : Run.Reachable g₀ r := .actions [.start 1]
  have drawn : r.game.phase = .playing ∧ r.game.isSettled = true ∧
      (r.game.board.tiles.toList.all fun t => t.link.isNone) = true ∧
      r.game.canMove .right = true ∧ r.game.puffle.pos = .zero ∧
      r.game.blockAt ⟨1, 0⟩ = some 0 ∧ r.game.board.kind? ⟨1, 0⟩ = some .empty := by
    cases new
    decide +kernel
  have moved : (r.move 62 (.hold .right)).events.drop r.events.length =
        [.blockPushed 0 ⟨1, 0⟩ .right, .blockPushed 0 ⟨2, 0⟩ .right,
          .blockPushed 0 ⟨3, 0⟩ .right] ∧
      (r.move 62 (.hold .right)).game.blocks[0]? = some ⟨⟨4, 0⟩, none, none⟩ := by
    cases new
    decide +kernel
  obtain ⟨playing, settled, linkless, free, pos, ahead, kind⟩ := drawn
  obtain ⟨told, block⟩ := moved
  have next : r.game.puffle.pos.step .right = ⟨1, 0⟩ := by
    rw [pos]
    rfl
  have accepted : ∀ l ∈ [alley], l.Accepted := by decide
  obtain ⟨k, travels, stops⟩ := pushed_block_stops new accepted (by decide)
    Rules.validate_standard reached playing settled
    (fun c _ => Board.link?_eq_none_of_tiles linkless c) free (next ▸ ahead)
    (by rw [next, kind]; nofun) (by rw [next, kind]; nofun)
  obtain ⟨_, _, stands, _, block', on⟩ := stops 62 (by decide) (by rw [told]; simp)
  rw [next] at travels stands block' on
  have same : (⟨1, 0⟩ : Coord).along .right k = ⟨4, 0⟩ :=
    congrArg Block.pos (Option.some.inj (block'.symm.trans block))
  have three : k = 3 := Coord.along_inj.1 (same.trans (b := ⟨4, 0⟩) rfl)
  rw [same] at on
  exact ⟨g₀, r, new, reached, settled, three ▸ travels, stands, block, on⟩

end IceMaze
