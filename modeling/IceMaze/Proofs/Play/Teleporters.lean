import IceMaze.Proofs.Board.Portals
import IceMaze.Proofs.Play.Redrawing

/-!
What becomes of the teleporters while a level is played.

An operation leaves the teleporters as they are, or it is the puffle that goes through one and wears
out both ends (`Operation.portals`). So what has been told since the level was drawn accounts for
each end that is worn out (`Portals`), and a pair carries the puffle once at most.
-/

namespace IceMaze

namespace Event

/-- The puffle has gone through a teleporter with one end on the cell. -/
def wears (c : Coord) : Event → Bool
  | .teleported source target => c = source || c = target
  | _ => false

theorem wears_of_not_isTeleport {e : Event} (other : e.isTeleport = false) (c : Coord) :
    e.wears c = false := by
  cases e with
  | teleported => cases other
  | _ => rfl

/-- Each use has two ends, so counting the uses of all cells counts each of them twice. -/
theorem sum_countP_wears {es : List Event}
    (ends : ∀ c d, .teleported c d ∈ es → c ≠ d ∧ c.OnBoard ∧ d.OnBoard) :
    (∑ c ∈ boardCells.toFinset, es.countP (wears c)) = 2 * es.countP isTeleport := by
  induction es with
  | nil => simp
  | cons e es ih =>
    have rest := ih fun c d told => ends c d (List.mem_cons_of_mem _ told)
    have first : (∑ c ∈ boardCells.toFinset, if e.wears c then 1 else 0) =
        2 * if e.isTeleport then 1 else 0 := by
      cases e with
      | teleported c d =>
        obtain ⟨apart, on_c, on_d⟩ := ends c d List.mem_cons_self
        have mem_c : c ∈ boardCells.toFinset := List.mem_toFinset.2 (mem_boardCells.2 on_c)
        have mem_d : d ∈ boardCells.toFinset := List.mem_toFinset.2 (mem_boardCells.2 on_d)
        have split (x : Coord) : (if (teleported c d).wears x then 1 else 0) =
            (if x = c then 1 else 0) + if x = d then 1 else 0 := by
          by_cases at_c : x = c
          · have not_d : x ≠ d := fun at_d => apart (at_c.symm.trans at_d)
            simp [wears, at_c, apart]
          · simp [wears, at_c]
        simp only [split, Finset.sum_add_distrib, Finset.sum_ite_eq', mem_c, mem_d, if_true]
        rfl
      | _ => simp [wears, isTeleport]
    simp only [List.countP_cons, Finset.sum_add_distrib, rest, first, Nat.mul_add]

/-- What wears out one end of a pair goes from one of its ends to the other. -/
theorem countP_wears {es : List Event} {c d : Coord} (apart : c ≠ d)
    (ends : ∀ x y, .teleported x y ∈ es → c = x ∨ c = y → x = c ∧ y = d ∨ x = d ∧ y = c) :
    es.countP (wears c) = es.count (.teleported c d) + es.count (.teleported d c) := by
  induction es with
  | nil => rfl
  | cons e es ih =>
    have rest := ih fun x y told => ends x y (List.mem_cons_of_mem _ told)
    have first : (if e.wears c then 1 else 0) =
        (if e == .teleported c d then 1 else 0) + if e == .teleported d c then 1 else 0 := by
      cases e with
      | teleported x y =>
        by_cases here : c = x ∨ c = y
        · obtain ⟨rfl, rfl⟩ | ⟨rfl, rfl⟩ := ends x y List.mem_cons_self here
          · simp [wears, apart]
          · simp [wears, apart]
        · have elsewhere := not_or.1 here
          simp [wears, elsewhere.1, elsewhere.2, Ne.symm elsewhere.1, Ne.symm elsewhere.2]
      | _ => simp [wears]
    rw [List.countP_cons, List.count_cons, List.count_cons, rest, first]
    omega

end Event

namespace Game

open Board Event

variable {g g' : Game}

theorem samePortals_leave (paired : g.board.Paired) (c : Coord) :
    SamePortals g.board (g.leave c).board := by
  rw [board_leave]
  cases melts : (g.board.kind? c).bind melt? with
  | none => exact .refl _
  | some k =>
    obtain ⟨j, kind, melts_to⟩ := Option.bind_eq_some_iff.1 melts
    apply paired.changeTile
    · rw [kind]
      rintro ⟨⟩
      cases melts_to
    · rintro rfl
      cases j <;> cases melts_to

theorem samePortals_pushBlock (i : Nat) (d : Direction) :
    SamePortals g.board (g.pushBlock i d).board := by
  cases here : g.blocks[i]? with
  | none =>
    rw [pushBlock_of_none d here]
    exact .refl _
  | some b =>
    rw [board_pushBlock d here]
    apply SamePortals.modify <;> intro t <;> split <;> rfl

theorem SameGround.samePortals (same : g.SameGround g')
    (plaid : ∀ c, g'.board.isPlaid c = g.board.isPlaid c) : SamePortals g.board g'.board where
  teleporter c := by rw [same.kind?]
  link? := same.link?
  isPlaid := plaid

/-- The teleporters stay as they are, or the puffle goes through one that has not been used. -/
theorem Operation.portals {es : List Event} (op : Operation g es g') (paired : g.board.Paired) :
    (SamePortals g.board g'.board ∧ ∀ e ∈ es, e.isTeleport = false) ∨
    ∃ c d, es = [.teleported c d] ∧ g.board.isPlaid c = false ∧ g.board.link? c = some d ∧
      g'.board = g.board.wearOut c d := by
  cases op with
  | still _ board => exact .inl ⟨board ▸ .refl _, by simp⟩
  | leave c =>
    refine .inl ⟨samePortals_leave paired c, ?_⟩
    unfold leaveEvents
    split <;> simp [isTeleport]
  | pushBlock i d =>
    refine .inl ⟨samePortals_pushBlock i d, ?_⟩
    unfold pushEvents
    split <;> simp [isTeleport]
  | pressButton =>
    refine .inl ⟨?_, g.forall_mem_pressEvents (fun _ _ => rfl) fun _ => rfl⟩
    rw [board_pressButton]
    exact paired.revealSecret.trans (.place _ _)
  | landBlock i b m =>
    refine .inl ⟨?_, ?_⟩
    · rw [board_landBlock]
      exact .modify (fun _ => rfl) (fun _ => rfl) fun _ => rfl
    · unfold landEvents
      split <;> simp [isTeleport]
  | takeBag c =>
    refine .inl ⟨(SameGround.takeBag c).samePortals (isPlaid_takeBag c), ?_⟩
    unfold bagEvents
    split <;> simp [isTeleport]
  | takeKey c =>
    refine .inl ⟨(SameGround.takeKey c).samePortals (isPlaid_takeKey c), ?_⟩
    unfold keyEvents
    split <;> simp [isTeleport]
  | openLock lock =>
    refine .inl ⟨?_, by simp [isTeleport]⟩
    rw [board_openLock]
    exact paired.changeTile (by rw [lock]; nofun) nofun
  | teleport fresh linked => exact .inr ⟨_, _, rfl, fresh, linked, rfl⟩

theorem Operation.paired {es : List Event} (op : Operation g es g') (paired : g.board.Paired) :
    g'.board.Paired := by
  obtain ⟨same, _⟩ | ⟨c, d, _, _, link, board⟩ := op.portals paired
  · exact same.paired paired
  · exact board ▸ paired.wearOut link

theorem Step.paired {levels : List Level} (step : Step g g') (loaded : g.setting.Loaded levels)
    (keyed : g.Keyed) (paired : g.board.Paired) : g'.board.Paired := by
  obtain ⟨es, _, played⟩ | turn := step.plays keyed
  · exact played.keeps (P := fun _ g => g.board.Paired) (fun _ _ _ _ op => op.paired) [] paired
  · obtain ⟨_, _, l, _, _, _, drawn⟩ | rfl := turn.drawn loaded
    · exact board_of_drawn drawn ▸ paired_openingBoard l _
    · exact paired

/-! ## Since the level was drawn -/

/-- The teleporters are paired, and the worn ends are those that the puffle has used. -/
structure Portals (log : List Event) (g : Game) : Prop where
  paired : g.board.Paired
  used : ∀ c, (sinceOpening log).countP (wears c) = if g.board.isPlaid c then 1 else 0
  linked : ∀ c d, .teleported c d ∈ sinceOpening log → g.board.link? c = some d

theorem Portals.quiet {log es : List Event} (h : Portals log g)
    (same : SamePortals g.board g'.board)
    (quiet : ∀ e ∈ es, e.opensLevel = false ∧ e.isTeleport = false) : Portals (log ++ es) g' := by
  have added := sinceOpening_append log fun e told => (quiet e told).1
  refine ⟨same.paired h.paired, fun c => ?_, fun c d told => ?_⟩
  · have unused : es.countP (wears c) = 0 := by
      rw [List.countP_eq_zero]
      intro e told
      rw [wears_of_not_isTeleport (quiet e told).2]
      exact Bool.false_ne_true
    rw [added, List.countP_append, unused, h.used, same.isPlaid]
    rfl
  · rw [added, List.mem_append] at told
    rw [same.link?]
    obtain before | now := told
    · exact h.linked c d before
    · cases (quiet _ now).2

/-- The ends of a teleporter that has not been used are worn out by the puffle. -/
theorem Portals.teleport {log : List Event} {c d : Coord} (h : Portals log g)
    (fresh : g.board.isPlaid c = false) (link : g.board.link? c = some d)
    (board : g'.board = g.board.wearOut c d) : Portals (log ++ [.teleported c d]) g' := by
  have added : sinceOpening (log ++ [.teleported c d]) = sinceOpening log ++ [.teleported c d] :=
    sinceOpening_append log (by simp [opensLevel])
  obtain ⟨on_c, on_d⟩ := h.paired.onBoard link
  have fresh_d : g.board.isPlaid d = false := (h.paired.worn c d link).symm.trans fresh
  refine ⟨board ▸ h.paired.wearOut link, fun e => ?_, fun x y told => ?_⟩
  · rw [added, List.countP_append, h.used, board, isPlaid_wearOut on_c on_d]
    by_cases at_end : e = c ∨ e = d
    · have unused : g.board.isPlaid e = false := by
        obtain rfl | rfl := at_end <;> assumption
      have now : (teleported c d).wears e = true := by
        simpa [wears] using at_end
      simp [unused, at_end, now]
    · have not_now : (teleported c d).wears e = false := by
        simpa [wears] using at_end
      simp [at_end, not_now]
  · rw [added, List.mem_append, List.mem_singleton] at told
    rw [board, link?_wearOut]
    obtain before | now := told
    · exact h.linked x y before
    · cases now
      exact link

theorem Portals.operation {log es : List Event} (op : Operation g es g') (h : Portals log g) :
    Portals (log ++ es) g' := by
  obtain ⟨same, untold⟩ | ⟨c, d, rfl, fresh, link, board⟩ := op.portals h.paired
  · exact h.quiet same fun e told => ⟨opensLevel_of_isOfPlay (op.told e told), untold e told⟩
  · exact h.teleport fresh link board

theorem portals_of_drawn {l : Level} (drawn : g.drawing = l.drawing g.solvedPrevious)
    {log : List Event} {e : Event} (opens : e.opensLevel = true) : Portals (log ++ [e]) g := by
  have board := board_of_drawn drawn
  refine ⟨board ▸ paired_openingBoard l _, fun c => ?_, fun c d told => ?_⟩
  · rw [sinceOpening_concat opens, board, isPlaid_openingBoard]
    rfl
  · rw [sinceOpening_concat opens] at told
    cases told

/-- Before the first level there is no teleporter. -/
theorem portals_of_empty (board : g.board = .empty) : Portals [] g := by
  have bare (c : Coord) : g.board.get? c = none ∨ g.board.get? c = some (.fresh .empty) := by
    rw [board, Board.empty, get?_build]
    split
    · exact .inr rfl
    · exact .inl rfl
  have kind (c : Coord) : g.board.kind? c ≠ some .teleporter := by
    unfold kind?
    obtain off | on := bare c
    · simp [off]
    · simp [on, Tile.fresh]
  have unlinked (c : Coord) : g.board.link? c = none := by
    unfold link?
    obtain off | on := bare c
    · simp [off]
    · simp [on, Tile.fresh]
  have unused (c : Coord) : g.board.isPlaid c = false := by
    unfold isPlaid
    obtain off | on := bare c
    · simp [off]
    · simp [on, Tile.fresh]
  have nowhere {c d : Coord} {P : Prop} (link : g.board.link? c = some d) : P := by
    cases (unlinked c).symm.trans link
  refine ⟨⟨⟨fun _ _ => nowhere, fun _ _ => nowhere, fun _ _ => nowhere⟩, fun _ _ => nowhere,
    fun c plaid => ?_, fun c _ here => absurd here (kind c)⟩, fun c => ?_,
    fun c d told => absurd told List.not_mem_nil⟩
  · cases (unused c).symm.trans plaid
  · rw [unused]
    rfl

end Game

theorem countP_boardCells (p : Coord → Bool) :
    boardCells.countP p = ∑ c ∈ boardCells.toFinset, if p c then 1 else 0 := by
  rw [List.countP_eq_length_filter, ← List.toFinset_card_of_nodup (nodup_boardCells.filter p),
    List.toFinset_filter, Finset.card_filter]

/-! ## Runs -/

section
variable {levels : List Level} {rules : Rules} {seed : UInt64} {g₀ : Game} {r : Run}

theorem Run.Reachable.portals (new : Game.new levels rules seed = .ok g₀)
    (h : Run.Reachable g₀ r) : r.game.Portals r.events := by
  apply h.by_operations new
  · exact Game.portals_of_empty (Game.unstarted_of_new new).board
  · intro log g portals
    exact ⟨portals.paired, portals.used, portals.linked⟩
  · intro log e g l opens _ drawn
    exact Game.portals_of_drawn drawn opens
  · intro log es g g' op portals
    exact portals.operation op
  · intro log g portals
    exact portals.quiet (.refl _) (by simp [Event.opensLevel, Event.isTeleport])

/-- Every link joins two teleporters both ways, one teleporter at most is left over, and the worn
ends are those of the pairs that have carried the puffle since the level was drawn, each pair
once. -/
theorem teleporters_carry_once (new : Game.new levels rules seed = .ok g₀)
    (h : Run.Reachable g₀ r) :
    let board := r.game.board
    let told := Event.sinceOpening r.events
    (∀ a b, board.link? a = some b → a ≠ b ∧ board.kind? a = some .teleporter ∧
      board.kind? b = some .teleporter ∧ board.link? b = some a ∧
      board.isPlaid a = board.isPlaid b) ∧
    (∀ a, board.isPlaid a = true → ∃ b, board.link? a = some b) ∧
    (∀ a b, board.kind? a = some .teleporter → board.link? a = none →
      board.kind? b = some .teleporter → board.link? b = none → a = b) ∧
    2 * told.countP Event.isTeleport = boardCells.countP board.isPlaid ∧
    (∀ a b, .teleported a b ∈ told → board.link? a = some b) ∧
    ∀ a b, board.link? a = some b → told.count (.teleported a b) + told.count (.teleported b a) =
      if board.isPlaid a then 1 else 0 := by
  intro board told
  obtain ⟨paired, used, linked⟩ := h.portals new
  refine ⟨?_, paired.linked, paired.lone, ?_, linked, ?_⟩
  · intro a b link
    exact ⟨paired.apart a b link, paired.teleporter a b link, paired.partner link,
      paired.back a b link, paired.worn a b link⟩
  · have ends : ∀ a b, .teleported a b ∈ told → a ≠ b ∧ a.OnBoard ∧ b.OnBoard := by
      intro a b here
      have link := linked a b here
      exact ⟨paired.apart a b link, paired.onBoard link⟩
    rw [← Event.sum_countP_wears ends, countP_boardCells]
    exact Finset.sum_congr rfl fun c _ => used c
  · intro a b link
    rw [← used a]
    refine (Event.countP_wears (paired.apart a b link) fun x y here at_a => ?_).symm
    have joined := linked x y here
    obtain rfl | rfl := at_a
    · exact .inl ⟨rfl, Option.some.inj (joined.symm.trans link)⟩
    · have back := paired.back x a joined
      exact .inr ⟨Option.some.inj (back.symm.trans link), rfl⟩

end

/-- Three teleporters in a row, of which the last is left over. -/
def portal : Level where
  origin := .zero
  spawn := ⟨1, 0⟩
  tiles := .set (.set (.set (.filled 6 1 .empty) 2 0 .teleporter) 4 0 .teleporter) 5 0 .teleporter
  keys := []
  blocks := []
  bag := none
  patches := []

/-- The puffle has been carried once, and both ends are worn out. -/
theorem teleporters_carry_once_in_portal :
    ∃ g₀ r, Game.new [portal] { Rules.standard with puffleMoveTicks := 1 } 0 = .ok g₀ ∧
      Run.Reachable g₀ r ∧ r.game.puffle.pos = ⟨4, 0⟩ ∧
      r.game.board.link? ⟨2, 0⟩ = some ⟨4, 0⟩ ∧ r.game.board.isPlaid ⟨2, 0⟩ = true ∧
      r.game.board.isPlaid ⟨4, 0⟩ = true ∧ r.game.board.link? ⟨5, 0⟩ = none ∧
      (Event.sinceOpening r.events).count (.teleported ⟨2, 0⟩ ⟨4, 0⟩) +
        (Event.sinceOpening r.events).count (.teleported ⟨4, 0⟩ ⟨2, 0⟩) = 1 := by
  obtain ⟨g₀, new⟩ : ∃ g₀, Game.new [portal] { Rules.standard with puffleMoveTicks := 1 } 0 =
      .ok g₀ := ⟨_, rfl⟩
  let r := [.start 1, .tick (.hold .right)].foldl Run.act (.start g₀)
  have reached : Run.Reachable g₀ r := .actions _
  have played : r.game.puffle.pos = ⟨4, 0⟩ ∧ r.game.board.link? ⟨2, 0⟩ = some ⟨4, 0⟩ ∧
      r.game.board.isPlaid ⟨2, 0⟩ = true ∧ r.game.board.link? ⟨5, 0⟩ = none := by
    cases new
    decide +kernel
  obtain ⟨carried, link, plaid, left_over⟩ := played
  obtain ⟨pairs, _, _, _, _, once⟩ := teleporters_carry_once new reached
  have worn := (pairs _ _ link).2.2.2.2
  have used := once _ _ link
  rw [plaid] at worn used
  exact ⟨g₀, r, new, reached, carried, link, plaid, worn.symm, left_over, used⟩

end IceMaze
