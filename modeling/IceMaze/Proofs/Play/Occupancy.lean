import IceMaze.Proofs.Level.Acceptance
import IceMaze.Proofs.Play.Effects
import IceMaze.Proofs.Play.Reachable

/-!
Who is where, while a level is played.

Blocks at rest are kept twice, in the list of blocks and as numbers on the board. `Occupancy` says
that both agree and that no cell is held twice. Operations change one block at a time, which is
`Occupancy.replace`, or none, which is `Occupancy.keep`.
-/

namespace IceMaze

/-- A well placed level whose blocks start apart from each other and from the puffle. -/
structure Level.Uncrowded (l : Level) : Prop where
  placed : l.WellPlaced
  distinct : l.blocks.Nodup
  spawn : l.spawn ∉ l.blocks

theorem Level.uncrowded_of_accepted {levels : List Level} (accepted : ∀ l ∈ levels, l.Accepted)
    (distinct : ∀ l ∈ levels, l.blocks.Nodup ∧ l.spawn ∉ l.blocks) :
    ∀ l ∈ levels, l.Uncrowded := fun l hl =>
  ⟨(accepted l hl).wellPlaced, (distinct l hl).1, (distinct l hl).2⟩

namespace Game

open Board

variable {g g' : Game}

/-- The board and the list of blocks agree, and each cell is held by one block or the puffle at
most. -/
structure Occupancy (g : Game) : Prop where
  rests : ∀ c i, g.board.blockOn? c = some i ↔
    ∃ b, g.blocks[i]? = some b ∧ b.motion = none ∧ b.pos = c
  apart : ∀ (i j : Nat) (a b : Block), g.blocks[i]? = some a → g.blocks[j]? = some b →
    a.target = b.target → i = j
  clear : ∀ b ∈ g.blocks, g.puffleHolds b.target = false
  inside : ∀ b ∈ g.blocks, b.pos.OnBoard ∧ b.target.OnBoard
  count : ∀ l, g.layout = some l → g.blocks.length = l.blocks.length
  links : g.board.LinksStay

theorem target_of_rests {b : Block} (rests : b.motion = none) : b.target = b.pos := by
  simp [Block.target, rests]

theorem target_of_moves {b : Block} {m : Motion} (moves : b.motion = some m) :
    b.target = m.target := by
  simp [Block.target, moves]

/-! ## What holds a cell -/

theorem puffleHolds_congr (pos : g'.puffle.pos = g.puffle.pos)
    (motion : g'.puffle.motion = g.puffle.motion) (c : Coord) :
    g'.puffleHolds c = g.puffleHolds c := by
  unfold puffleHolds
  rw [pos, motion]

theorem puffleHolds_eq_false {c : Coord} :
    g.puffleHolds c = false ↔
      c ≠ g.puffle.pos ∧ ∀ m, g.puffle.motion = some m → c ≠ m.target := by
  unfold puffleHolds
  cases g.puffle.motion <;> simp [eq_comm (a := c)]

theorem target_ne_of_blockAt {c : Coord} {j : Nat} {b : Block} (free : g.blockAt c = none)
    (here : g.blocks[j]? = some b) : b.target ≠ c := by
  unfold blockAt at free
  split at free
  · cases free
  · rw [List.findIdx?_eq_none_iff] at free
    simpa using free b (List.mem_of_getElem? here)

theorem Occupancy.blockAt_iff (h : g.Occupancy) {c : Coord} {i : Nat} :
    g.blockAt c = some i ↔ ∃ b, g.blocks[i]? = some b ∧ b.target = c := by
  unfold blockAt
  cases on : g.board.blockOn? c with
  | some j =>
    obtain ⟨a, there, rests, pos⟩ := (h.rests c j).1 on
    have target : a.target = c := (target_of_rests rests).trans pos
    rw [blockOn?] at on
    simp only [on, Option.some.injEq]
    constructor
    · rintro rfl
      exact ⟨a, there, target⟩
    · rintro ⟨b, here, same⟩
      exact h.apart j i a b there here (target.trans same.symm)
  | none =>
    rw [blockOn?] at on
    simp only [on]
    rw [List.findIdx?_eq_some_iff_getElem]
    constructor
    · rintro ⟨bound, holds, _⟩
      exact ⟨g.blocks[i], List.getElem?_eq_getElem bound, by simpa using holds⟩
    · rintro ⟨b, here, same⟩
      obtain ⟨bound, rfl⟩ := List.getElem?_eq_some_iff.1 here
      refine ⟨bound, by simpa using same, fun j before => ?_⟩
      have there := List.getElem?_eq_getElem (Nat.lt_trans before bound)
      simp only [decide_eq_true_eq]
      intro twice
      have := h.apart j i _ _ there here (twice.trans same.symm)
      omega

theorem Occupancy.blockOn?_eq_none (h : g.Occupancy) {c : Coord} (holds : g.puffleHolds c = true) :
    g.board.blockOn? c = none := by
  cases on : g.board.blockOn? c with
  | none => rfl
  | some i =>
    obtain ⟨b, here, rests, rfl⟩ := (h.rests c i).1 on
    have free := h.clear b (List.mem_of_getElem? here)
    rw [target_of_rests rests, holds] at free
    cases free

/-! ## No block changes -/

theorem Occupancy.keep (h : g.Occupancy) (layout : g'.layout = g.layout)
    (blocks : g'.blocks = g.blocks) (links : g'.board.LinksStay)
    (marks : ∀ c, g'.board.blockOn? c = g.board.blockOn? c)
    (clear : ∀ b ∈ g.blocks, g'.puffleHolds b.target = false) : g'.Occupancy where
  rests c i := by rw [marks, blocks, h.rests]
  apart := by rw [blocks]; exact h.apart
  clear := by rw [blocks]; exact clear
  inside := by rw [blocks]; exact h.inside
  count := by rw [blocks, layout]; exact h.count
  links := links

theorem Occupancy.sameGround (h : g.Occupancy) (same : g.SameGround g')
    (layout : g'.layout = g.layout)
    (clear : ∀ b ∈ g.blocks, g'.puffleHolds b.target = false) : g'.Occupancy :=
  h.keep layout same.blocks (same.linksStay h.links) same.blockOn? clear

/-- The cell that the puffle leaves has no block on it. -/
theorem Occupancy.leave (h : g.Occupancy) : (g.leave g.puffle.pos).Occupancy := by
  have bare : g.board.blockOn? g.puffle.pos = none := h.blockOn?_eq_none (by simp [puffleHolds])
  refine h.keep (layout_of_setting (setting_leave g _)) (blocks_leave _)
    (linksStay_leave _ h.links) (blockOn?_leave bare) fun b hb => ?_
  rw [puffleHolds_congr (g := g) (by simp) (by simp)]
  exact h.clear b hb

theorem Occupancy.blockAt_leave (h : g.Occupancy) (c : Coord) :
    (g.leave g.puffle.pos).blockAt c = g.blockAt c := by
  have bare : g.board.blockOn? g.puffle.pos = none := h.blockOn?_eq_none (by simp [puffleHolds])
  exact blockAt_congr (blocks_leave g.puffle.pos) (blockOn?_leave bare) c

/-- Resting blocks keep their numbers when the secret changes the tiles under them. -/
theorem Occupancy.pressButton (h : g.Occupancy) : g.pressButton.Occupancy := by
  refine h.keep (layout_of_setting (setting_pressButton g)) blocks_pressButton
    (linksStay_pressButton h.links) (fun c => Option.ext fun i => ?_) fun b hb => ?_
  · have once : ∀ c i j, (c, i) ∈ g.marksOn (g.board.secrets.map Prod.fst) →
        (c, j) ∈ g.marksOn (g.board.secrets.map Prod.fst) → i = j := by
      intro c i j hi hj
      obtain ⟨_, a, there, rest_a, rfl⟩ := mem_marksOn.1 hi
      obtain ⟨_, b, here, rest_b, pos⟩ := mem_marksOn.1 hj
      refine h.apart i j a b there here ?_
      rw [target_of_rests rest_a, target_of_rests rest_b, pos]
    rw [board_pressButton, blockOn?_place once, blockOn?_revealSecret, mem_marksOn, ← h.rests]
    constructor
    · rintro ⟨_, ⟨_, kept⟩ | ⟨_, shown⟩⟩
      · exact kept
      · split at shown
        · cases shown
        · exact shown
    · intro on
      refine ⟨onBoard_of_blockOn? on, ?_⟩
      by_cases wiped : c ∈ g.board.secrets.map Prod.fst
      · exact .inl ⟨wiped, on⟩
      · exact .inr ⟨fun j hj => wiped (mem_marksOn.1 hj).1, by rw [if_neg wiped, on]⟩
  · rw [puffleHolds_congr (g := g) (by simp) (by simp)]
    exact h.clear b hb

/-! ## One block changes -/

section
variable {i : Nat} {b b' : Block}

theorem Occupancy.replace (h : g.Occupancy) (here : g.blocks[i]? = some b)
    (layout : g'.layout = g.layout) (blocks : g'.blocks = g.blocks.set i b')
    (puffle : g'.puffle = g.puffle) (links : g'.board.LinksStay)
    (marks : ∀ c j, g'.board.blockOn? c = some j ↔
      (j ≠ i ∧ g.board.blockOn? c = some j) ∨ (j = i ∧ b'.motion = none ∧ b'.pos = c))
    (alone : ∀ j a, j ≠ i → g.blocks[j]? = some a → a.target ≠ b'.target)
    (free : g.puffleHolds b'.target = false) (inside : b'.pos.OnBoard ∧ b'.target.OnBoard) :
    g'.Occupancy := by
  have bound := (List.getElem?_eq_some_iff.1 here).1
  have lookup : ∀ j, g'.blocks[j]? = if j = i then some b' else g.blocks[j]? := by
    intro j
    rw [blocks, List.getElem?_set]
    by_cases same : j = i
    · simp [same, bound]
    · simp [same, Ne.symm same]
  have forall_blocks {P : Block → Prop} (old : ∀ a ∈ g.blocks, P a) (new : P b') :
      ∀ a ∈ g'.blocks, P a := by
    rw [blocks]
    intro a ha
    rcases List.mem_or_eq_of_mem_set ha with ha | rfl
    · exact old a ha
    · exact new
  refine ⟨fun c j => ?_, fun j k a c ha hc same => ?_, ?_, ?_, ?_, links⟩
  · rw [marks, lookup]
    by_cases same : j = i
    · simp [same]
    · simp [same, h.rests]
  · rw [lookup] at ha hc
    split at ha <;> split at hc
    · rename_i hj hk
      rw [hj, hk]
    · rename_i hk
      cases ha
      exact absurd same.symm (alone k c hk hc)
    · rename_i hj _
      cases hc
      exact absurd same (alone j a hj ha)
    · exact h.apart j k a c ha hc same
  · refine forall_blocks (fun a ha => ?_) ?_ <;> rw [puffleHolds_congr (g := g) (by rw [puffle])
      (by rw [puffle])]
    · exact h.clear a ha
    · exact free
  · exact forall_blocks h.inside inside
  · rw [layout, blocks, List.length_set]
    exact h.count

/-- A block is retimed or loses its momentum. -/
theorem Occupancy.setBlock (h : g.Occupancy) (here : g.blocks[i]? = some b)
    (pos : b'.pos = b.pos) (target : b'.target = b.target)
    (motion : b'.motion = none ↔ b.motion = none) : (g.setBlock i b').Occupancy := by
  refine h.replace here rfl rfl rfl h.links (fun c j => ?_) (fun j a other there => ?_) ?_ ?_
  · have marked := h.rests c j
    by_cases same : j = i
    · subst same
      simp only [ne_eq, not_true_eq_false, false_and, true_and, false_or, motion, pos]
      exact marked.trans (by simp [here])
    · simp only [ne_eq, same, not_false_eq_true, true_and, false_and, or_false]
      exact Iff.rfl
  · rw [target]
    exact fun same => other (h.apart j i a b there here same)
  · rw [target]
    exact h.clear b (List.mem_of_getElem? here)
  · rw [pos, target]
    exact h.inside b (List.mem_of_getElem? here)

theorem canPush_eq_true {c : Coord} {d : Direction} (free : g.canPush c d = true) :
    (c.step d).OnBoard ∧ g.puffleHolds (c.step d) = false ∧ g.blockAt (c.step d) = none := by
  unfold canPush at free
  simp only [Bool.and_eq_true, Bool.not_eq_true'] at free
  obtain ⟨clear, free⟩ := free
  split at free
  · rename_i k kind
    simp only [Bool.and_eq_true, Option.isNone_iff_eq_none] at free
    exact ⟨onBoard_of_kind? kind, clear, free.2⟩
  · cases free

theorem Occupancy.pushBlock (h : g.Occupancy) (here : g.blocks[i]? = some b)
    (rests : b.motion = none) {d : Direction} (inside : (b.pos.step d).OnBoard)
    (clear : g.puffleHolds (b.pos.step d) = false) (free : g.blockAt (b.pos.step d) = none) :
    (g.pushBlock i d).Occupancy := by
  refine h.replace here (layout_of_setting (setting_pushBlock g i d)) (blocks_pushBlock d here)
    (puffle_pushBlock d) (linksStay_pushBlock d h.links) (fun c j => ?_)
    (fun j a _ there => ?_) clear ⟨(h.inside b (List.mem_of_getElem? here)).1, inside⟩
  · have own : g.board.blockOn? c = some i ↔ b.pos = c := by simp [h.rests, here, rests]
    rw [blockOn?_pushBlock d here]
    by_cases same : j = i
    · subst same
      by_cases at_pos : b.pos = c
      · simp [own.2 at_pos, at_pos, motion_pushed]
      · simp [own, at_pos, motion_pushed]
    · simp only [ne_eq, same, not_false_eq_true, true_and, false_and, or_false]
      split
      · rename_i lifted
        rw [lifted.2]
        simp [Ne.symm same]
      · rfl
  · rw [target_pushed]
    exact target_ne_of_blockAt free there

theorem Occupancy.landBlock (h : g.Occupancy) {m : Motion} (here : g.blocks[i]? = some b)
    (moves : b.motion = some m) : (g.landBlock i b m.step).Occupancy := by
  have own : b ∈ g.blocks := List.mem_of_getElem? here
  -- a block either stays on the cell it has reached or leaves it for a free one
  have landing : (∀ j a, j ≠ i → g.blocks[j]? = some a → a.target ≠ g.landing i b m.step) ∧
      g.puffleHolds (g.landing i b m.step) = false ∧ (g.landing i b m.step).OnBoard := by
    unfold Game.landing
    cases exit : (g.setBlock i { b with motion := none }).blockExit? m.step.target with
    | none =>
      rw [Option.getD_none, target_step, ← target_of_moves moves]
      exact ⟨fun j a other there same => other (h.apart j i a b there here same), h.clear b own,
        (h.inside b own).2⟩
    | some c =>
      obtain ⟨link, free, clear⟩ := blockExit?_eq_some exit
      refine ⟨fun j a other there => ?_, clear, h.links _ _ link⟩
      refine target_ne_of_blockAt (j := j) free ?_
      rw [Game.setBlock, List.getElem?_set_ne (Ne.symm other), there]
  obtain ⟨alone, clear, inside⟩ := landing
  obtain ⟨momentum, _, blocks⟩ := blocks_landBlock (g := g) (i := i) (b := b) (m := m.step)
  refine h.replace here (layout_of_setting (setting_landBlock g i b m.step)) blocks
    puffle_landBlock ?_ (fun c j => ?_) alone clear ⟨inside, inside⟩
  · rw [board_landBlock]
    exact h.links.modify (by simp)
  · have unmarked : g.board.blockOn? c ≠ some i := by
      simp [h.rests, here, moves]
    have bare : g.board.blockOn? (g.landing i b m.step) = none := by
      cases on : g.board.blockOn? (g.landing i b m.step) with
      | none => rfl
      | some j =>
        obtain ⟨a, there, rests, pos⟩ := (h.rests _ _).1 on
        by_cases same : j = i
        · subst same
          rw [here] at there
          cases there
          simp [moves] at rests
        · exact absurd ((target_of_rests rests).trans pos) (alone j a same there)
    rw [board_landBlock, blockOn?_mark]
    by_cases at_landing : c = g.landing i b m.step
    · subst at_landing
      simp [inside, bare, eq_comm]
    · by_cases same : j = i
      · simp [at_landing, Ne.symm at_landing, same, unmarked]
      · simp [at_landing, same]

end

/-! ## The puffle sets off -/

/-- A cell is free, or its block can go one cell on. -/
def MakesWay (g : Game) (c : Coord) (d : Direction) : Prop :=
  g.blockAt c = none ∨ ∃ i b, g.blockAt c = some i ∧ g.blocks[i]? = some b ∧ b.motion = none ∧
    (c.step d).OnBoard ∧ g.puffleHolds (c.step d) = false ∧ g.blockAt (c.step d) = none

theorem makesWay_of_canMove {d : Direction} (free : g.canMove d = true) :
    g.MakesWay (g.puffle.pos.step d) d := by
  simp only [canMove, canMove?] at free
  split at free
  · cases free
  · split at free
    · cases free
    · split at free
      · rename_i i ahead
        cases here : g.blocks[i]? with
        | none => simp [here] at free
        | some b =>
          simp only [here, Option.map_some, Option.getD_some, Bool.and_eq_true,
            Bool.not_eq_true', Block.isMoving, Option.isSome_eq_false_iff,
            Option.isNone_iff_eq_none] at free
          exact .inr ⟨i, b, ahead, here, free.1, canPush_eq_true free.2⟩
      · exact .inl ‹_›

/-- After the push the cell is free. -/
theorem Occupancy.pushAhead (h : g.Occupancy) {c : Coord} {d : Direction} (way : g.MakesWay c d) :
    (g.pushAhead c d).Occupancy ∧ ∀ b ∈ (g.pushAhead c d).blocks, b.target ≠ c := by
  unfold Game.pushAhead
  rcases way with none_ahead | ⟨i, b, ahead, here, rests, inside, clear, free⟩
  · simp only [none_ahead]
    refine ⟨h, fun b hb => ?_⟩
    obtain ⟨j, there⟩ := List.getElem?_of_mem hb
    exact target_ne_of_blockAt none_ahead there
  · simp only [ahead]
    obtain ⟨a, there, target⟩ := h.blockAt_iff.1 ahead
    cases here.symm.trans there
    have pos : b.pos = c := (target_of_rests rests).symm.trans target
    subst pos
    refine ⟨h.pushBlock here rests inside clear free, ?_⟩
    rw [blocks_pushBlock d here]
    intro a ha
    obtain ⟨j, there⟩ := List.getElem?_of_mem ha
    rw [List.getElem?_set] at there
    split at there
    · split at there
      · cases there
        exact step_ne b.pos d
      · cases there
    · rename_i other
      exact fun same => other (h.apart i j b a here there (target.trans same.symm))

theorem Occupancy.pressAt (h : g.Occupancy) (c : Coord) : (g.pressAt c).Occupancy := by
  unfold Game.pressAt
  split
  · exact h.pressButton
  · exact h

theorem Occupancy.startMove (h : g.Occupancy) {d : Direction} (free : g.canMove d = true) :
    (g.startMove d).Occupancy := by
  have way : (g.leave g.puffle.pos).MakesWay (g.puffle.pos.step d) d := by
    unfold MakesWay
    rw [h.blockAt_leave, h.blockAt_leave, blocks_leave, puffleHolds_congr (g := g) (by simp) (by simp)]
    exact makesWay_of_canMove free
  obtain ⟨pushed, ahead⟩ := h.leave.pushAhead way
  have pressed := pushed.pressAt (g.puffle.pos.step d)
  rw [startMove_eq]
  apply pressed.sameGround (sameGround_depart _ d _) rfl
  intro b hb
  have clear := puffleHolds_eq_false.1 (pressed.clear b hb)
  rw [blocks_pressAt] at hb
  refine puffleHolds_eq_false.2 ⟨clear.1, fun m started => ?_⟩
  cases started
  exact ahead b hb

/-! ## The puffle arrives -/

/-- The cell of a moving puffle's target is its own. -/
theorem Occupancy.reach (h : g.Occupancy) {m : Motion} (moves : g.puffle.motion = some m) :
    ((g.arrive m.target).takeBag m.target).Occupancy := by
  apply h.sameGround (.reach m.target) (layout_of_setting (by simp))
  intro b hb
  rw [puffleHolds_congr (g := g.arrive m.target) (by simp) (by simp)]
  refine puffleHolds_eq_false.2 ⟨?_, fun n stands => by cases stands⟩
  exact (puffleHolds_eq_false.1 (h.clear b hb)).2 m moves

theorem Occupancy.search (h : g.Occupancy) (c : Coord) :
    (g.takeKey c).awaitStuckCheck.Occupancy := by
  apply h.sameGround (.search c) (layout_of_setting (by simp))
  intro b hb
  exact (puffleHolds_congr (pos_takeKey c) (motion_takeKey c) _).trans (h.clear b hb)

theorem Occupancy.exit (h : g.Occupancy) {c d : Coord} (stands : g.puffle.motion = none)
    (free : g.blockAt d = none) : ((g.teleport c d).takeKey c).Occupancy := by
  apply h.sameGround (.exit c d) (layout_of_setting (by simp))
  intro b hb
  rw [puffleHolds_congr (g := g.teleport c d) (pos_takeKey c) (motion_takeKey c)]
  obtain ⟨j, there⟩ := List.getElem?_of_mem hb
  refine puffleHolds_eq_false.2 ⟨target_ne_of_blockAt free there, fun n moves => ?_⟩
  cases stands.symm.trans moves

theorem Occupancy.openLock (h : g.Occupancy) {c : Coord} (holds : g.puffleHolds c = true) :
    (g.openLock c).Occupancy := by
  have bare := h.blockOn?_eq_none holds
  refine h.keep (layout_of_setting (setting_openLock g c)) rfl (linksStay_openLock c h.links)
    (fun e => ?_) h.clear
  rw [board_openLock, blockOn?_changeTile]
  split
  · rename_i same
    rw [same, bare]
  · rfl

/-! ## Levels -/

/-- Where a level has its blocks, no two share a cell and none is on the puffle's. -/
theorem Opened.occupancy {l : Level} (h : g.Opened l) (layout : g.layout = some l)
    (placed : l.WellPlaced) (distinct : l.blocks.Nodup) (spawn : l.spawn ∉ l.blocks) :
    g.Occupancy := by
  obtain ⟨earned, board⟩ := h.board
  have lookup : ∀ i : Nat, g.blocks[i]? = l.blocks[i]?.map Block.new := by simp [h.blocks]
  have inside : ∀ c ∈ l.blocks, c.OnBoard := fun c hc =>
    placed.onBoard (placed.blocks_within c hc)
  refine ⟨fun c i => ?_, fun i j a b ha hb same => ?_, ?_, ?_, fun l' hl' => ?_, ?_⟩
  · rw [board, blockOn?_openingBoard distinct, lookup]
    constructor
    · rintro ⟨_, here⟩
      exact ⟨.new c, by rw [here, Option.map_some], rfl, rfl⟩
    · rintro ⟨b, here, _, rfl⟩
      obtain ⟨d, starts, rfl⟩ := Option.map_eq_some_iff.1 here
      exact ⟨inside d (List.mem_of_getElem? starts), starts⟩
  · rw [lookup] at ha hb
    obtain ⟨c, hc, rfl⟩ := Option.map_eq_some_iff.1 ha
    obtain ⟨d, hd, rfl⟩ := Option.map_eq_some_iff.1 hb
    cases (same : c = d)
    exact (List.getElem?_inj (List.getElem?_eq_some_iff.1 hc).1 distinct).1 (hc.trans hd.symm)
  · rw [h.blocks]
    intro b hb
    obtain ⟨c, hc, rfl⟩ := List.mem_map.1 hb
    rw [puffleHolds_eq_false, h.puffle]
    refine ⟨?_, fun m moves => by cases moves⟩
    rintro rfl
    exact spawn hc
  · rw [h.blocks]
    intro b hb
    obtain ⟨c, hc, rfl⟩ := List.mem_map.1 hb
    exact ⟨inside c hc, inside c hc⟩
  · cases layout.symm.trans hl'
    rw [h.blocks, List.length_map]
  · rw [board]
    exact linksStay_openingBoard l earned

theorem Opened.occupancy_variant {l : Level} {alt : Bool} (h : g.Opened (l.variant alt))
    (layout : g.layout = some (l.variant alt)) (uncrowded : l.Uncrowded) : g.Occupancy :=
  h.occupancy layout (Level.variant_wellPlaced uncrowded.placed alt) uncrowded.distinct
    uncrowded.spawn

theorem Occupancy.resetLevel {levels : List Level} (uncrowded : ∀ l ∈ levels, l.Uncrowded)
    (loaded : g.setting.Loaded levels) (playing : g.phase = .playing) :
    g.resetLevel.Occupancy := by
  obtain ⟨l, layout⟩ := loaded.exists_layout playing
  obtain ⟨m, _, found, rfl, _⟩ := loaded.layout_eq l layout
  exact (opened_resetLevel playing layout).occupancy_variant
    (g.layout_resetLevel.trans layout) (uncrowded m (List.mem_of_getElem? found))

theorem Occupancy.load {levels : List Level} (uncrowded : ∀ l ∈ levels, l.Uncrowded)
    (levels_eq : g.levels = levels) {n : Nat} {l : Level} (found : g.level? n = some l) :
    (g.load n l).Occupancy := by
  refine (opened_load n l).occupancy_variant (g.layout_load n l) ?_
  exact uncrowded l (levels_eq ▸ List.mem_of_getElem? (level?_eq_some.1 found).2)

theorem Step.occupancy {levels : List Level} (uncrowded : ∀ l ∈ levels, l.Uncrowded)
    (step : Step g g') (loaded : g.setting.Loaded levels)
    (h : g.phase = .playing → g.Occupancy) (plays : g'.phase = .playing) : g'.Occupancy := by
  cases step with
  | countTick playing | forgetStuckCheck playing =>
    exact (h playing).sameGround (.of_board rfl rfl rfl) rfl (h playing).clear
  | startMove d playing _ free => exact (h playing).startMove free
  | dropMomentum playing here => exact (h playing).setBlock here rfl rfl Iff.rfl
  | slide d playing here rests free =>
    obtain ⟨inside, clear, free⟩ := canPush_eq_true free
    exact (h playing).pushBlock here rests inside clear free
  | glide playing here moves =>
    refine (h playing).setBlock here rfl ?_ (by simp [moves])
    rw [target_of_moves moves, ← target_step]
    rfl
  | land playing here moves => exact (h playing).landBlock here moves
  | @walk m playing moves =>
    refine (h playing).sameGround (.of_board rfl rfl rfl) rfl fun b hb => ?_
    have clear := puffleHolds_eq_false.1 ((h playing).clear b hb)
    refine puffleHolds_eq_false.2 ⟨clear.1, fun n hn => ?_⟩
    cases hn
    rw [target_step]
    exact clear.2 m moves
  | @leaveBoard m playing moves =>
    apply (h playing).sameGround (.arrive m.target) rfl
    intro b hb
    refine puffleHolds_eq_false.2 ⟨?_, fun n hn => by cases hn⟩
    exact (puffleHolds_eq_false.1 ((h playing).clear b hb)).2 m moves
  | reachGoal playing moves => exact (h playing).reach moves
  | enterLock playing moves =>
    refine Occupancy.search (((h playing).reach moves).openLock ?_) _
    simp [puffleHolds, arrive]
  | enterTeleporter playing moves _ _ _ _ _ free =>
    refine ((h playing).reach moves).exit (by simp [arrive]) ?_
    rw [blockAt_takeBag]
    exact free
  | enterPlain playing moves => exact ((h playing).reach moves).search _
  | fail playing => exact Occupancy.resetLevel uncrowded loaded playing
  | reset playing => exact Occupancy.resetLevel uncrowded loaded playing
  | load found => exact Occupancy.load uncrowded loaded.levels_eq found
  | next found => exact Occupancy.load (g := g.complete) uncrowded loaded.levels_eq found
  | conclude => cases plays

end Game

section
variable {levels : List Level} {rules : Rules} {seed : UInt64} {g₀ : Game} {r : Run}

theorem Run.Reachable.occupancy (new : Game.new levels rules seed = .ok g₀)
    (uncrowded : ∀ l ∈ levels, l.Uncrowded) (h : Run.Reachable g₀ r)
    (playing : r.game.phase = .playing) : r.game.Occupancy := by
  have unstarted := Game.unstarted_of_new new
  refine (h.game_invariant
    (Q := fun g => g.setting.Loaded levels ∧ (g.phase = .playing → g.Occupancy)) unstarted.silent
    ⟨unstarted.loaded, fun playing => ?_⟩ (fun g hg => ⟨hg.1, fun playing => ?_⟩)
    fun g g' step hg => ⟨step.loaded hg.1, step.occupancy uncrowded hg.1 hg.2⟩).2 playing
  · cases unstarted.phase.symm.trans playing
  · exact (hg.2 playing).sameGround (.of_board rfl rfl rfl) rfl (hg.2 playing).clear

/-- Board and blocks agree, no two blocks share a cell, and none is on a cell of the puffle. -/
theorem occupancy_in_play (new : Game.new levels rules seed = .ok g₀)
    (accepted : ∀ l ∈ levels, l.Accepted)
    (distinct : ∀ l ∈ levels, l.blocks.Nodup ∧ l.spawn ∉ l.blocks) (h : Run.Reachable g₀ r)
    (playing : r.game.phase = .playing) :
    (∀ c i, r.game.board.blockOn? c = some i ↔
      ∃ b, r.game.blocks[i]? = some b ∧ b.motion = none ∧ b.pos = c) ∧
    (∀ c i, r.game.blockAt c = some i ↔ ∃ b, r.game.blocks[i]? = some b ∧ b.target = c) ∧
    (∀ (i j : Nat) (a b : Block), r.game.blocks[i]? = some a → r.game.blocks[j]? = some b →
      a.target = b.target → i = j) ∧
    (∀ b ∈ r.game.blocks, b.target ≠ r.game.puffle.pos ∧
      ∀ m, r.game.puffle.motion = some m → b.target ≠ m.target) ∧
    (∃ l, r.game.layout = some l ∧ r.game.blocks.length = l.blocks.length) ∧
    ∀ b ∈ r.game.blocks, b.pos.OnBoard ∧ b.target.OnBoard := by
  have uncrowded := Level.uncrowded_of_accepted accepted distinct
  have occupancy := h.occupancy new uncrowded playing
  refine ⟨occupancy.rests, fun c i => occupancy.blockAt_iff, occupancy.apart, fun b hb => ?_, ?_,
    occupancy.inside⟩
  · exact Game.puffleHolds_eq_false.1 (occupancy.clear b hb)
  · cases layout : r.game.layout with
    | none => cases playing.symm.trans ((h.loaded new).idle layout).1
    | some l => exact ⟨l, rfl, occupancy.count l layout⟩

end

/-- A corridor with a block in front of the puffle. -/
def corridor : Level where
  origin := .zero
  spawn := .zero
  tiles := .filled 4 1 .ice
  keys := []
  blocks := [⟨1, 0⟩]
  bag := none
  patches := []

theorem corridor_accepted : corridor.Accepted := by decide

/-- Once pushed, the block holds the cell that it moves to. -/
theorem occupancy_in_corridor :
    ∃ g₀ r, Game.new [corridor] .standard 0 = .ok g₀ ∧ Run.Reachable g₀ r ∧
      r.game.phase = .playing ∧ r.game.board.blockOn? ⟨2, 0⟩ = none ∧
      r.game.blockAt ⟨2, 0⟩ = some 0 := by
  have new : Game.new [corridor] .standard 0 = .ok _ := rfl
  have accepted : ∀ l ∈ [corridor], l.Accepted := by simpa using corridor_accepted
  refine ⟨_, _, new, .actions [.start 1, .tick (.hold .right)], by decide +kernel,
    by decide +kernel, ?_⟩
  refine ((occupancy_in_play new accepted (by decide) (.actions _)
    (by decide +kernel)).2.1 _ _).2 ?_
  exact ⟨⟨⟨1, 0⟩, some ⟨⟨1, 0⟩, ⟨2, 0⟩, .right, 1, 3⟩, none⟩, by decide +kernel, rfl⟩

end IceMaze
