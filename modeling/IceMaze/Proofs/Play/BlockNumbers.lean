import IceMaze.Proofs.Play.Effects
import IceMaze.Proofs.Play.Reachable

/-!
The block numbers that a board shows, for any levels at all.

Until a game is over each number on the board is that of a block (`Run.Reachable.blockNumbers`). The
end of the last level takes the blocks away and leaves their numbers behind: `dangling_iff_finished`
says that this is the only way to a number without a block, and which questions about moves have
then no answer.
-/

namespace IceMaze

namespace Game

open Board

variable {g g' : Game}

/-- Each number on the board is that of a block. -/
def Numbered (g : Game) : Prop := ∀ c i, g.board.blockOn? c = some i → i < g.blocks.length

theorem Numbered.of_marks (h : g.Numbered) (length : g'.blocks.length = g.blocks.length)
    (marks : ∀ c i, g'.board.blockOn? c = some i →
      i < g.blocks.length ∨ g.board.blockOn? c = some i) : g'.Numbered := by
  intro c i hi
  rw [length]
  rcases marks c i hi with bound | before
  · exact bound
  · exact h c i before

theorem SameGround.numbered (same : g.SameGround g') (h : g.Numbered) : g'.Numbered :=
  h.of_marks (congrArg List.length same.blocks) fun c _ hi => .inr (same.blockOn? c ▸ hi)

theorem Numbered.setBlock (h : g.Numbered) (i : Nat) (b : Block) : (g.setBlock i b).Numbered :=
  h.of_marks List.length_set fun _ _ => .inr

theorem Numbered.leave (h : g.Numbered) (c : Coord) : (g.leave c).Numbered :=
  h.of_marks (by simp) fun _ _ hi => .inr (blockOn?_of_leave hi)

theorem Numbered.pushBlock (h : g.Numbered) (i : Nat) (d : Direction) :
    (g.pushBlock i d).Numbered := by
  refine h.of_marks (length_pushBlock d) fun c j hj => .inr ?_
  cases here : g.blocks[i]? with
  | none => rwa [pushBlock_of_none d here] at hj
  | some b =>
    rw [blockOn?_pushBlock d here] at hj
    split at hj
    · cases hj
    · exact hj

theorem Numbered.pressButton (h : g.Numbered) : g.pressButton.Numbered := by
  apply h.of_marks (by simp)
  intro c i hi
  rw [board_pressButton] at hi
  rcases mem_of_blockOn?_place hi with kept | shown
  · obtain ⟨_, b, here, _⟩ := mem_marksOn.1 kept
    exact .inl (List.getElem?_eq_some_iff.1 here).1
  · rw [blockOn?_revealSecret] at shown
    split at shown
    · cases shown
    · exact .inr shown

theorem Numbered.startMove (h : g.Numbered) (d : Direction) : (g.startMove d).Numbered := by
  have pushed : ((g.leave g.puffle.pos).pushAhead (g.puffle.pos.step d) d).Numbered := by
    unfold pushAhead
    split
    · exact (h.leave _).pushBlock _ d
    · exact h.leave _
  rw [startMove_eq]
  refine (sameGround_depart _ d _).numbered ?_
  unfold pressAt
  split
  · exact pushed.pressButton
  · exact pushed

theorem Numbered.landBlock (h : g.Numbered) {i : Nat} {b c : Block} {m : Motion}
    (here : g.blocks[i]? = some c) : (g.landBlock i b m).Numbered := by
  obtain ⟨momentum, _, blocks⟩ := blocks_landBlock (g := g) (i := i) (b := b) (m := m)
  apply h.of_marks (by simp [blocks])
  intro c j hj
  rw [board_landBlock, blockOn?_mark] at hj
  split at hj
  · cases hj
    exact .inl (List.getElem?_eq_some_iff.1 here).1
  · exact .inr hj

theorem Numbered.openLock (h : g.Numbered) (c : Coord) : (g.openLock c).Numbered := by
  refine h.of_marks rfl fun e i hi => .inr ?_
  rw [board_openLock, blockOn?_changeTile] at hi
  split at hi
  · cases hi
  · exact hi

theorem Opened.numbered {l : Level} (h : g.Opened l) : g.Numbered := by
  intro c i hi
  obtain ⟨earned, board⟩ := h.board
  rw [board] at hi
  simpa [h.blocks] using lt_of_blockOn?_openingBoard hi

theorem Numbered.resetLevel (h : g.Numbered) : g.resetLevel.Numbered := by
  obtain same | ⟨l, opened⟩ := g.resetLevel_cases
  · rwa [same]
  · exact opened.numbered

/-- Numbers without a block are left only by the end of the last level. -/
structure BlockNumbers (g : Game) : Prop where
  unfinished : g.phase ≠ .finished → g.Numbered
  finished : g.phase = .finished → g.blocks = []

theorem BlockNumbers.of_playing (playing : g.phase = .playing) (h : g.Numbered) :
    g.BlockNumbers := ⟨fun _ => h, fun finished => by simp [playing] at finished⟩

theorem Step.blockNumbers (step : Step g g') (h : g.BlockNumbers) : g'.BlockNumbers := by
  have numbered (playing : g.phase = .playing) : g.Numbered := h.unfinished (by simp [playing])
  have kept (playing : g.phase = .playing) (same : g'.setting = g.setting) (h : g'.Numbered) :
      g'.BlockNumbers := .of_playing ((phase_of_setting same).trans playing) h
  have reset (f : Game) (playing : f.phase = .playing) (hf : f.Numbered) :
      f.resetLevel.BlockNumbers := .of_playing (f.phase_resetLevel.trans playing) hf.resetLevel
  cases step with
  | countTick playing | walk playing | forgetStuckCheck playing =>
    exact kept playing rfl (numbered playing)
  | startMove d playing => exact kept playing (by simp) ((numbered playing).startMove d)
  | dropMomentum playing | glide playing =>
    exact kept playing (by simp) ((numbered playing).setBlock _ _)
  | slide d playing => exact kept playing (by simp) ((numbered playing).pushBlock _ d)
  | land playing here => exact kept playing (by simp) ((numbered playing).landBlock here)
  | @leaveBoard m playing =>
    exact kept playing (by simp) ((SameGround.arrive m.target).numbered (numbered playing))
  | @reachGoal m _ playing =>
    exact kept playing (by simp) ((SameGround.reach m.target).numbered (numbered playing))
  | @enterLock m _ playing =>
    have opened := ((SameGround.reach m.target).numbered (numbered playing)).openLock m.target
    exact kept playing (by simp) ((SameGround.search m.target).numbered opened)
  | @enterTeleporter m _ c playing =>
    exact kept playing (by simp)
      (((SameGround.reach m.target).trans (.exit m.target c)).numbered (numbered playing))
  | @enterPlain m _ playing =>
    exact kept playing (by simp)
      (((SameGround.reach m.target).trans (.search m.target)).numbered (numbered playing))
  | fail playing => exact reset _ playing (numbered playing)
  | reset playing => exact reset g playing (numbered playing)
  | load | next =>
    exact .of_playing (phase_load _ _ _) (opened_load _ _).numbered
  | conclude => exact ⟨fun unfinished => absurd rfl unfinished, fun _ => rfl⟩

/-! ## Questions about moves -/

/-- The tile ahead lets the puffle in, as far as blocks are left aside. -/
def OpenAhead (g : Game) (d : Direction) : Prop :=
  ∃ k, g.board.kind? (g.puffle.pos.step d) = some k ∧ g.rules.forbids k = false ∧
    ¬(k = .lock ∧ g.puffle.keys = 0)

theorem blockAt_of_blockOn? {c : Coord} {i : Nat} (h : g.board.blockOn? c = some i) :
    g.blockAt c = some i := by
  rw [blockOn?] at h
  simp [blockAt, h]

theorem blockOn?_or_lt_of_blockAt {c : Coord} {i : Nat} (h : g.blockAt c = some i) :
    g.board.blockOn? c = some i ∨ i < g.blocks.length := by
  unfold blockAt at h
  split at h
  · rename_i j on
    cases h
    exact .inl on
  · exact .inr (List.findIdx?_eq_some_iff_findIdx_eq.1 h).1

theorem canMove?_of_openAhead {d : Direction} (h : g.OpenAhead d) :
    g.canMove? d =
      match g.blockAt (g.puffle.pos.step d) with
      | some i => g.blocks[i]?.map fun b => !b.isMoving && g.canPush (g.puffle.pos.step d) d
      | none => some true := by
  obtain ⟨k, kind, free, unlocked⟩ := h
  have not_barred : (g.rules.forbids k || (k = .lock && g.puffle.keys = 0)) = false := by
    simp_all
  cases ahead : g.blockAt (g.puffle.pos.step d) <;> simp [canMove?, kind, not_barred, ahead]

theorem canMove?_of_barred {d : Direction} (h : ¬g.OpenAhead d) : g.canMove? d = some false := by
  unfold canMove?
  dsimp only
  split
  · rfl
  · rename_i k kind
    rw [if_pos]
    refine Decidable.byContradiction fun free => h ⟨k, kind, ?_⟩
    simpa using free

theorem openAhead_of_canMove {d : Direction} (free : g.canMove d = true) : g.OpenAhead d := by
  apply Classical.byContradiction
  intro barred
  rw [canMove, canMove?_of_barred barred] at free
  cases free

theorem canMove?_eq_none {d : Direction} :
    g.canMove? d = none ↔ g.OpenAhead d ∧
      ∃ i, g.board.blockOn? (g.puffle.pos.step d) = some i ∧ g.blocks.length ≤ i := by
  constructor
  · intro unanswered
    have ahead : g.OpenAhead d := Classical.byContradiction fun barred => by
      rw [canMove?_of_barred barred] at unanswered
      cases unanswered
    rw [canMove?_of_openAhead ahead] at unanswered
    split at unanswered
    · rename_i i found
      have beyond := List.getElem?_eq_none_iff.1 (Option.map_eq_none_iff.1 unanswered)
      rcases blockOn?_or_lt_of_blockAt found with on | bound
      · exact ⟨ahead, i, on, beyond⟩
      · exact absurd bound (Nat.not_lt.2 beyond)
    · cases unanswered
  · rintro ⟨ahead, i, on, beyond⟩
    rw [canMove?_of_openAhead ahead, blockAt_of_blockOn? on]
    simpa using beyond

/-- All questions about moves have answers as long as the game is not over. -/
theorem BlockNumbers.canMove?_eq (h : g.BlockNumbers) (unfinished : g.phase ≠ .finished)
    (d : Direction) : g.canMove? d = some (g.canMove d) := by
  cases answer : g.canMove? d with
  | none =>
    obtain ⟨_, i, on, beyond⟩ := canMove?_eq_none.1 answer
    have bound := h.unfinished unfinished _ i on
    omega
  | some free =>
    rw [canMove, answer]
    rfl

theorem allM_eq_none {α : Type} {f : α → Option Bool} {as : List α} :
    as.allM f = none ↔
      ∃ asked a rest, as = asked ++ a :: rest ∧ (∀ b ∈ asked, f b = some true) ∧ f a = none := by
  induction as with
  | nil => simp [List.allM]
  | cons a as ih =>
    rw [List.allM]
    cases ha : f a with
    | none => exact ⟨fun _ => ⟨[], a, as, rfl, by simp, ha⟩, fun _ => rfl⟩
    | some holds =>
      constructor
      · intro unanswered
        cases holds with
        | false => cases unanswered
        | true =>
          obtain ⟨asked, b, rest, split, before, hb⟩ := ih.1 unanswered
          refine ⟨a :: asked, b, rest, by rw [split, List.cons_append], ?_, hb⟩
          exact List.forall_mem_cons.2 ⟨ha, before⟩
      · rintro ⟨asked, b, rest, split, before, hb⟩
        cases asked with
        | nil =>
          cases split
          simp [ha] at hb
        | cons e asked =>
          cases split
          obtain ⟨first, before⟩ := List.forall_mem_cons.1 before
          cases ha.symm.trans first
          exact ih.2 ⟨asked, b, rest, rfl, before, hb⟩

/-- The questions are asked in turn, up to the first move that can be made. -/
theorem isStuck?_eq_none :
    g.isStuck? = none ↔ ∃ asked d rest, Direction.all = asked ++ d :: rest ∧
      (∀ e ∈ asked, g.canMove? e = some false) ∧ g.canMove? d = none := by
  unfold isStuck?
  rw [allM_eq_none]
  simp

end Game

/-! ## Runs -/

section
variable {levels : List Level} {rules : Rules} {seed : UInt64} {g₀ : Game} {r : Run}

theorem Run.Reachable.blockNumbers (new : Game.new levels rules seed = .ok g₀)
    (h : Run.Reachable g₀ r) : r.game.BlockNumbers := by
  have unstarted := Game.unstarted_of_new new
  refine h.game_invariant (Q := Game.BlockNumbers) unstarted.silent ?_ (fun _ h => ⟨h.1, h.2⟩)
    fun _ _ step => step.blockNumbers
  refine ⟨fun _ c i hi => ?_, fun finished => by simp [unstarted.phase] at finished⟩
  rw [unstarted.board, Board.blockOn?, Board.empty, Board.get?_build] at hi
  split at hi <;> cases hi

/-- A number on the board is that of a block exactly as long as the game is not over, and a move
that would meet a number of no block is the only one about which nothing can be said. -/
theorem dangling_iff_finished (new : Game.new levels rules seed = .ok g₀)
    (h : Run.Reachable g₀ r) :
    (∀ c i, r.game.board.blockOn? c = some i →
      (i < r.game.blocks.length ↔ r.game.phase ≠ .finished)) ∧
    (∀ d, r.game.canMove? d = none ↔ r.game.phase = .finished ∧ r.game.OpenAhead d ∧
      (r.game.board.blockOn? (r.game.puffle.pos.step d)).isSome) ∧
    (r.game.isStuck? = none ↔ ∃ asked d rest, Direction.all = asked ++ d :: rest ∧
      (∀ e ∈ asked, r.game.canMove? e = some false) ∧ r.game.canMove? d = none) := by
  have numbers := h.blockNumbers new
  have bound : ∀ c i, r.game.board.blockOn? c = some i →
      (i < r.game.blocks.length ↔ r.game.phase ≠ .finished) := by
    intro c i on
    refine ⟨fun bound finished => ?_, fun unfinished => numbers.unfinished unfinished c i on⟩
    simp [numbers.finished finished] at bound
  refine ⟨bound, fun d => ?_, Game.isStuck?_eq_none⟩
  rw [Game.canMove?_eq_none]
  constructor
  · rintro ⟨ahead, i, on, beyond⟩
    have finished : r.game.phase = .finished := Decidable.byContradiction fun unfinished =>
      absurd ((bound _ _ on).2 unfinished) (Nat.not_lt.2 beyond)
    exact ⟨finished, ahead, by simp [on]⟩
  · rintro ⟨finished, ahead, marked⟩
    obtain ⟨i, on⟩ := Option.isSome_iff_exists.1 marked
    exact ⟨ahead, i, on, by simp [numbers.finished finished]⟩

end

/-- The goal lies between the puffle and a block. -/
def pastGoal : Level where
  origin := .zero
  spawn := .zero
  tiles := .set (.filled 3 1 .empty) 1 0 .goal
  keys := []
  blocks := [⟨2, 0⟩]
  bag := none
  patches := []

/-- The block's number is still there when the level is over, and the move onto it has no answer. -/
theorem dangling_past_goal :
    ∃ g₀ r, Game.new [pastGoal] .standard 0 = .ok g₀ ∧ Run.Reachable g₀ r ∧
      r.game.phase = .finished ∧ r.game.blocks = [] ∧ r.game.board.blockOn? ⟨2, 0⟩ = some 0 ∧
      r.game.canMove? .right = none := by
  have new : Game.new [pastGoal] .standard 0 = .ok _ := rfl
  refine ⟨_, _, new, .actions (.start 1 :: List.replicate 4 (.tick (.hold .right))),
    by decide +kernel, by decide +kernel, by decide +kernel, ?_⟩
  refine ((dangling_iff_finished new (.actions _)).2.1 .right).2 ⟨by decide +kernel, ?_⟩
  exact ⟨⟨.empty, by decide +kernel, by decide +kernel, by decide +kernel⟩, by decide +kernel⟩

end IceMaze
