import IceMaze.Proofs.Play.Ledger
import IceMaze.Proofs.Play.Teleporters

/-!
Where the keys of a level are.

A key lies on its tile until it is collected or the tile is changed, and both are told
(`Operation.guards`). The puffle has taken the key of every tile that it changes: it takes the key
of the cell on which it lands, and a teleporter, where it takes none, is never changed (`Secure`).
So since the level was drawn no key is lost (`key_conservation`).
-/

namespace IceMaze

/-- No key of the level lies where the puffle starts, on a lock or on a tile of the secret. -/
structure Level.KeysSecure (l : Level) : Prop where
  placed : l.WellPlaced
  spawn : l.spawn ∉ l.keys
  tiles : ∀ alt, ∀ c ∈ l.keys, (l.variant alt).tileAt c ≠ .lock ∧
    Board.revealed? ((l.variant alt).tileAt c) = none

namespace Game

open Board Event

variable {g g' : Game}

/-! ## What is told of keys -/

/-- A key that is left lies on the same kind of tile, and one that is gone from a cell has been
collected unless `es` tells of a change there. -/
structure Guards (es : List Event) (g g' : Game) : Prop where
  left : ∀ c, g'.board.hasKey c = true →
    g.board.hasKey c = true ∧ g'.board.kind? c = g.board.kind? c
  gone : ∀ c, (∀ k, .tileChanged c k ∈ es → g.board.hasKey c = false) →
    es.count (.keyCollected c) + (if g'.board.hasKey c then 1 else 0) =
      if g.board.hasKey c then 1 else 0

namespace Guards

theorem refl (g : Game) : Guards [] g g := ⟨fun _ key => ⟨key, rfl⟩, fun c _ => by simp⟩

theorem trans {h : Game} {es fs : List Event} (first : Guards es g h) (second : Guards fs h g') :
    Guards (es ++ fs) g g' := by
  refine ⟨fun c key => ?_, fun c spared => ?_⟩
  · obtain ⟨key', kind⟩ := second.left c key
    obtain ⟨key'', kind'⟩ := first.left c key'
    exact ⟨key'', kind.trans kind'⟩
  · have before := first.gone c fun k told => spared k (List.mem_append_left _ told)
    have after := second.gone c fun k told => by
      have bare := spared k (List.mem_append_right _ told)
      refine Bool.eq_false_iff.2 fun key => ?_
      cases bare.symm.trans (first.left c key).1
    rw [List.count_append]
    omega

/-- No key is collected where each tile stays as it is or is changed. -/
theorem of_uncollected {es : List Event} (uncollected : ∀ c, .keyCollected c ∉ es)
    (tiles : ∀ c, (g'.board.hasKey c = g.board.hasKey c ∧ g'.board.kind? c = g.board.kind? c) ∨
      g'.board.hasKey c = false ∧ ∃ k, .tileChanged c k ∈ es) : Guards es g g' := by
  refine ⟨fun c key => ?_, fun c spared => ?_⟩
  · obtain ⟨same, kind⟩ | ⟨bare, _⟩ := tiles c
    · exact ⟨same ▸ key, kind⟩
    · cases bare.symm.trans key
  · rw [List.count_eq_zero.2 (uncollected c), Nat.zero_add]
    obtain ⟨same, _⟩ | ⟨bare, k, told⟩ := tiles c
    · rw [same]
    · rw [bare, spared k told]

theorem of_unchanged {es : List Event} (uncollected : ∀ c, .keyCollected c ∉ es)
    (key : ∀ c, g'.board.hasKey c = g.board.hasKey c)
    (kind : ∀ c, g'.board.kind? c = g.board.kind? c) : Guards es g g' :=
  of_uncollected uncollected fun c => .inl ⟨key c, kind c⟩

/-- One tile is changed, and this is told. -/
theorem of_changeTile {es : List Event} {c : Coord} {k : TileKind}
    (uncollected : ∀ d, .keyCollected d ∉ es) (told : .tileChanged c k ∈ es)
    (board : g'.board = g.board.changeTile c k) : Guards es g g' := by
  refine of_uncollected uncollected fun d => ?_
  rw [board, hasKey_changeTile, kind?_changeTile]
  by_cases same : d = c
  · subst same
    exact .inr ⟨if_pos rfl, k, told⟩
  · exact .inl ⟨if_neg same, if_neg fun here => same here.1⟩

/-- A key that is not collected, and of whose tile no change is told, stays. -/
theorem hasKey_eq {es : List Event} {c : Coord} (h : Guards es g g')
    (spared : ∀ k, .tileChanged c k ∈ es → g.board.hasKey c = false)
    (uncollected : .keyCollected c ∉ es) : g'.board.hasKey c = g.board.hasKey c := by
  have gone := h.gone c spared
  rw [List.count_eq_zero.2 uncollected] at gone
  cases before : g.board.hasKey c <;> cases after : g'.board.hasKey c <;> simp_all

end Guards

theorem guards_leave (c : Coord) : Guards (g.leaveEvents c) g (g.leave c) := by
  have board := board_leave (g := g) c
  unfold leaveEvents
  cases melts : (g.board.kind? c).bind melt? with
  | none =>
    have stays : g.leave c = g := by simp [leave, melts]
    rw [stays]
    exact .refl g
  | some k =>
    rw [melts] at board
    exact .of_changeTile (k := k) (by simp) (by simp) board

theorem guards_pushBlock (i : Nat) (d : Direction) :
    Guards (g.pushEvents i d) g (g.pushBlock i d) := by
  unfold pushEvents
  cases here : g.blocks[i]? with
  | none =>
    rw [pushBlock_of_none d here]
    exact .refl g
  | some b =>
    refine .of_unchanged (by simp) (fun c => ?_) (kind?_pushBlock d)
    rw [board_pushBlock d here]
    exact hasKey_modify fun t => by split <;> rfl

theorem mem_pressEvents {c : Coord} {k : TileKind} :
    .tileChanged c k ∈ g.pressEvents ↔ (c, k) ∈ g.board.secrets := by
  unfold pressEvents
  split
  · rename_i none
    simp [none]
  · simp

/-- The secret changes the tiles that it tells of. -/
theorem guards_pressButton : Guards g.pressEvents g g.pressButton := by
  refine .of_uncollected (fun c told => ?_) fun c => ?_
  · have play := g.forall_mem_pressEvents (p := fun e => e.isKeyFound = false) (fun _ _ => rfl)
      (fun _ => rfl) _ told
    cases play
  · rw [kind?_pressButton, board_pressButton, hasKey_place, hasKey_revealSecret]
    cases kind : g.board.kind? c with
    | none => exact .inl ⟨rfl, rfl⟩
    | some j =>
      rw [Option.bind_some, Option.map_some]
      cases reveals : revealed? j with
      | none => exact .inl ⟨rfl, rfl⟩
      | some k => exact .inr ⟨rfl, k, mem_pressEvents.2 (mem_secrets.2 ⟨j, kind, reveals⟩)⟩

theorem guards_landBlock (i : Nat) (b : Block) (m : Motion) :
    Guards (g.landEvents i b m) g (g.landBlock i b m) := by
  refine .of_unchanged ?_ (fun c => ?_) kind?_landBlock
  · unfold landEvents
    split <;> simp
  · rw [board_landBlock]
    exact hasKey_modify fun _ => rfl

theorem hasKey_takeBag (c d : Coord) : (g.takeBag c).board.hasKey d = g.board.hasKey d := by
  unfold takeBag
  split
  · exact hasKey_modify fun _ => rfl
  · rfl

theorem guards_takeBag (c : Coord) : Guards (g.bagEvents c) g (g.takeBag c) := by
  refine .of_unchanged ?_ (hasKey_takeBag c) (SameGround.takeBag c).kind?
  unfold bagEvents
  split <;> simp

theorem hasKey_takeKey (c d : Coord) :
    (g.takeKey c).board.hasKey d = if d = c then false else g.board.hasKey d := by
  unfold takeKey
  split
  · exact hasKey_setKey
  · rename_i bare
    have bare : g.board.hasKey c = false := Bool.eq_false_iff.2 bare
    split
    · rename_i same
      rw [same, bare]
    · rfl

theorem guards_takeKey (c : Coord) : Guards (g.keyEvents c) g (g.takeKey c) := by
  refine ⟨fun d key => ?_, fun d _ => ?_⟩
  · rw [hasKey_takeKey] at key
    split at key
    · cases key
    · exact ⟨key, (SameGround.takeKey c).kind? d⟩
  · have events : g.keyEvents c = if g.board.hasKey c then [.keyCollected c] else [] := rfl
    rw [events, hasKey_takeKey]
    by_cases same : d = c
    · subst same
      cases g.board.hasKey d <;> simp
    · rw [if_neg same]
      split <;> simp [Ne.symm same]

theorem guards_teleport (c d : Coord) : Guards [.teleported c d] g (g.teleport c d) := by
  refine .of_unchanged (by simp) (fun e => ?_) (SameGround.teleport c d).kind?
  exact (hasKey_modify (by simp)).trans (hasKey_modify (by simp))

theorem Operation.guards {es : List Event} (op : Operation g es g') : Guards es g g' := by
  cases op with
  | still _ board => exact .of_unchanged (by simp) (fun _ => by rw [board]) fun _ => by rw [board]
  | leave c => exact guards_leave c
  | pushBlock i d => exact guards_pushBlock i d
  | pressButton => exact guards_pressButton
  | landBlock i b m => exact guards_landBlock i b m
  | takeBag c => exact guards_takeBag c
  | takeKey c => exact guards_takeKey c
  | openLock => exact .of_changeTile (by simp) (by simp) (board_openLock _)
  | teleport => exact guards_teleport _ _

theorem Plays.guards {es : List Event} (plays : Plays g es g') : Guards es g g' := by
  induction plays with
  | refl => exact .refl _
  | snoc _ last ih => exact ih.trans last.guards

/-! ## Tiles that are changed -/

/-- No key lies on a tile that the secret or a key changes, or where the puffle would melt it. -/
structure Secure (g : Game) : Prop where
  tiles : ∀ c k, g.board.hasKey c = true → g.board.kind? c = some k →
    k ≠ .lock ∧ revealed? k = none
  puffle : ∀ k, g.board.hasKey g.puffle.pos = true → g.board.kind? g.puffle.pos = some k →
    melt? k = none

theorem Secure.spares_press (h : g.Secure) {c : Coord} {k : TileKind}
    (told : .tileChanged c k ∈ g.pressEvents) : g.board.hasKey c = false := by
  obtain ⟨j, kind, reveals⟩ := mem_secrets.1 (mem_pressEvents.1 told)
  refine Bool.eq_false_iff.2 fun key => ?_
  cases reveals.symm.trans (h.tiles c j key kind).2

theorem Secure.spares_leave (h : g.Secure) {c : Coord} {k : TileKind}
    (told : .tileChanged c k ∈ g.leaveEvents g.puffle.pos) : g.board.hasKey c = false := by
  unfold leaveEvents at told
  cases melts : (g.board.kind? g.puffle.pos).bind melt? with
  | none => simp [melts] at told
  | some i =>
    simp only [melts, List.mem_cons, tileChanged.injEq, reduceCtorEq, List.not_mem_nil,
      or_false] at told
    obtain ⟨rfl, rfl⟩ := told
    obtain ⟨j, kind, melts_to⟩ := Option.bind_eq_some_iff.1 melts
    refine Bool.eq_false_iff.2 fun key => ?_
    cases melts_to.symm.trans (h.puffle j key kind)

/-- Wherever the puffle does not come to a key, the keys stay secure. -/
theorem Secure.guards {es : List Event} (h : g.Secure) (guards : Guards es g g')
    (puffle : g'.puffle.pos = g.puffle.pos ∨ ∀ k, g'.board.hasKey g'.puffle.pos = true →
      g'.board.kind? g'.puffle.pos = some k → melt? k = none) : g'.Secure := by
  constructor
  · intro c k key kind
    obtain ⟨key', same⟩ := guards.left c key
    exact h.tiles c k key' (same.symm.trans kind)
  · obtain stays | there := puffle
    · intro k key kind
      obtain ⟨key', same⟩ := guards.left _ key
      rw [stays] at key' same kind
      exact h.puffle k key' (same.symm.trans kind)
    · exact there

theorem eq_blockPushed_of_mem_aheadEvents {c : Coord} {d : Direction} {e : Event}
    (told : e ∈ g.aheadEvents c d) : ∃ i source, e = .blockPushed i source d := by
  unfold aheadEvents pushEvents at told
  split at told
  · cases told
  · split at told
    · cases told
    · exact ⟨_, _, List.mem_singleton.1 told⟩

theorem Secure.spares_startMove (h : g.Secure) (d : Direction) {c : Coord} {k : TileKind}
    (told : .tileChanged c k ∈ g.moveEvents d) : g.board.hasKey c = false := by
  let left := g.leave g.puffle.pos
  let target := g.puffle.pos.step d
  have before (j : TileKind) (told : .tileChanged c j ∈
      g.leaveEvents g.puffle.pos ++ left.aheadEvents target d) : g.board.hasKey c = false := by
    obtain leaves | pushes := List.mem_append.1 told
    · exact h.spares_leave leaves
    · obtain ⟨_, _, same⟩ := eq_blockPushed_of_mem_aheadEvents pushes
      cases same
  obtain started | pressed := List.mem_append.1 told
  · exact before k started
  · split at pressed
    · -- a key that the secret would take was there when the puffle left
      have guards :=
        (guards_leave (g := g) g.puffle.pos).trans (Plays.pushAhead left target d).guards
      have bare := (h.guards guards (.inl (by simp [left]))).spares_press pressed
      rw [← guards.hasKey_eq before fun told => ?_]
      · exact bare
      · obtain leaves | pushes := List.mem_append.1 told
        · unfold leaveEvents at leaves
          split at leaves <;> simp at leaves
        · obtain ⟨_, _, same⟩ := eq_blockPushed_of_mem_aheadEvents pushes
          cases same
    · cases pressed

theorem tileChanged_not_mem_bagEvents (c d : Coord) (k : TileKind) :
    .tileChanged d k ∉ g.bagEvents c := by
  unfold bagEvents
  split <;> simp

theorem tileChanged_not_mem_keyEvents (c d : Coord) (k : TileKind) :
    .tileChanged d k ∉ g.keyEvents c := by
  unfold keyEvents
  split <;> simp

/-- A step changes no tile with a key. -/
theorem Step.spares (step : Step g g') (h : g.Secure) {es : List Event}
    (added : g'.events = g.events ++ es) {c : Coord} {k : TileKind}
    (told : .tileChanged c k ∈ es) : g.board.hasKey c = false ∨ Turn g g' := by
  have now {fs : List Event} (events : g'.events = g.events ++ fs) : .tileChanged c k ∈ fs := by
    rwa [List.append_cancel_left (events.symm.trans added)]
  cases step with
  | countTick | dropMomentum | glide | walk | leaveBoard | forgetStuckCheck =>
    cases now (List.append_nil _).symm
  | startMove d => exact .inl (h.spares_startMove d (now (events_startMove g d)))
  | slide =>
    have pushes := now (events_pushBlock _ _ _)
    unfold pushEvents at pushes
    split at pushes <;> simp at pushes
  | land =>
    have lands := now (events_landBlock _ _ _ _)
    unfold landEvents at lands
    split at lands <;> simp at lands
  | reachGoal =>
    have reached := now (events_takeBag _ _)
    exact absurd reached (tileChanged_not_mem_bagEvents _ _ _)
  | @enterLock m t _ _ _ here lock =>
    simp only [events_awaitStuckCheck, events_takeKey, events_openLock, events_takeBag,
      events_arrive, List.append_assoc, List.append_cancel_left_eq] at added
    subst added
    simp only [List.mem_append, List.mem_cons, tileChanged.injEq, reduceCtorEq, List.not_mem_nil,
      or_false, tileChanged_not_mem_bagEvents, tileChanged_not_mem_keyEvents, false_or] at told
    obtain ⟨rfl, rfl⟩ := told
    have kind : g.board.kind? m.target = some .lock := by
      rw [Board.kind?, here, Option.map_some, lock]
    refine .inl (Bool.eq_false_iff.2 fun key => ?_)
    exact (h.tiles _ _ key kind).1 rfl
  | enterTeleporter =>
    simp only [events_takeKey, events_teleport, events_takeBag, events_arrive, List.append_assoc,
      List.append_cancel_left_eq] at added
    subst added
    simp [tileChanged_not_mem_bagEvents, tileChanged_not_mem_keyEvents] at told
  | enterPlain =>
    simp only [events_awaitStuckCheck, events_takeKey, events_takeBag, events_arrive,
      List.append_assoc, List.append_cancel_left_eq] at added
    subst added
    simp [tileChanged_not_mem_bagEvents, tileChanged_not_mem_keyEvents] at told
  | fail playing => exact .inr (.fail playing)
  | reset playing => exact .inr (.reset playing)
  | load found => exact .inr (.load found)
  | next found => exact .inr (.next found)
  | conclude last => exact .inr (.conclude last)

/-- The puffle stays on its cell, or there is no key left where it comes to, or its cell is one
that does not melt. -/
theorem Step.puffle_cases (step : Step g g') (paired : g.board.Paired) :
    (g'.puffle.pos = g.puffle.pos ∨ ∀ k, g'.board.hasKey g'.puffle.pos = true →
      g'.board.kind? g'.puffle.pos = some k → melt? k = none) ∨ Turn g g' := by
  cases step with
  | countTick | dropMomentum | glide | walk | forgetStuckCheck => exact .inl (.inl rfl)
  | startMove d => exact .inl (.inl (by rw [puffle_startMove]))
  | slide => exact .inl (.inl (by rw [puffle_pushBlock]))
  | land => exact .inl (.inl (by rw [puffle_landBlock]))
  | @leaveBoard m _ _ _ off =>
    refine .inl (.inr fun k _ kind => ?_)
    have kind : g.board.kind? m.target = some k := kind
    rw [Board.kind?, off] at kind
    cases kind
  | @reachGoal m t _ _ _ here goal =>
    refine .inl (.inr fun k _ kind => ?_)
    rw [puffle_takeBag, (SameGround.reach m.target).kind?] at kind
    have kind : g.board.kind? m.target = some k := kind
    rw [Board.kind?, here, Option.map_some, goal] at kind
    cases kind
    rfl
  | @enterLock m =>
    have pos : ((((g.arrive m.target).takeBag m.target).openLock m.target).takeKey
        m.target).puffle.pos = m.target := by
      rw [pos_takeKey]
      exact congrArg Puffle.pos (puffle_takeBag m.target)
    refine .inl (.inr fun k key _ => ?_)
    rw [puffle_awaitStuckCheck, pos, board_awaitStuckCheck, hasKey_takeKey, if_pos rfl] at key
    cases key
  | @enterPlain m =>
    have pos : (((g.arrive m.target).takeBag m.target).takeKey m.target).puffle.pos =
        m.target := by
      rw [pos_takeKey]
      exact congrArg Puffle.pos (puffle_takeBag m.target)
    refine .inl (.inr fun k key _ => ?_)
    rw [puffle_awaitStuckCheck, pos, board_awaitStuckCheck, hasKey_takeKey, if_pos rfl] at key
    cases key
  | @enterTeleporter m t c _ _ _ here _ _ linked =>
    refine .inl (.inr fun k _ kind => ?_)
    have link : g.board.link? m.target = some c := by
      rw [Board.link?, here, Option.bind_some, linked]
    rw [((SameGround.reach m.target).trans (.exit m.target c)).kind?, pos_takeKey] at kind
    have kind : g.board.kind? c = some k := kind
    cases kind.symm.trans (paired.partner link)
    rfl
  | fail playing => exact .inr (.fail playing)
  | reset playing => exact .inr (.reset playing)
  | load found => exact .inr (.load found)
  | next found => exact .inr (.next found)
  | conclude last => exact .inr (.conclude last)

/-! ## Since the level was drawn -/

/-- Each key of the level lies on its cell, where it is secure, or has been collected since the
level was drawn. -/
structure KeysTold (log : List Event) (g : Game) : Prop where
  secure : g.Secure
  told : ∀ l, g.layout = some l → ∀ c,
    (sinceOpening log).count (.keyCollected c) + (if g.board.hasKey c then 1 else 0) =
      if c ∈ l.keys then 1 else 0

structure KeysKept (levels : List Level) (log : List Event) (g : Game) : Prop where
  loaded : g.setting.Loaded levels
  keyed : g.Keyed
  paired : g.board.Paired
  told : g.KeysTold log

theorem secure_of_drawn {l : Level} {alt : Bool} (locked : l.KeysSecure)
    (drawn : g.drawing = (l.variant alt).drawing g.solvedPrevious) : g.Secure := by
  have board := board_of_drawn drawn
  have puffle : g.puffle = .new l.spawn := congrArg Drawing.puffle drawn
  constructor
  · intro c k key kind
    rw [board] at key kind
    obtain ⟨on, listed⟩ := hasKey_openingBoard.1 key
    rw [kind?_openingBoard, if_pos on] at kind
    cases kind
    exact locked.tiles alt c listed
  · intro k key
    rw [board, puffle] at key
    exact absurd (hasKey_openingBoard.1 key).2 locked.spawn

theorem keysTold_of_drawn {l : Level} {alt : Bool} (locked : l.KeysSecure)
    (layout : g.layout = some (l.variant alt))
    (drawn : g.drawing = (l.variant alt).drawing g.solvedPrevious) {log : List Event} {e : Event}
    (opens : e.opensLevel = true) : KeysTold (log ++ [e]) g := by
  refine ⟨secure_of_drawn locked drawn, fun l' layout' c => ?_⟩
  cases layout.symm.trans layout'
  have onBoard (listed : c ∈ l.keys) : c.OnBoard :=
    locked.placed.onBoard (locked.placed.keys_within c listed)
  have key : g.board.hasKey c = true ↔ c ∈ l.keys := by
    rw [board_of_drawn drawn]
    exact hasKey_openingBoard.trans ⟨And.right, fun listed => ⟨onBoard listed, listed⟩⟩
  rw [sinceOpening_concat opens, List.count_nil, Nat.zero_add]
  exact if_congr key rfl rfl

/-- The keys that were collected and those that still lie are together those of the level. -/
theorem countP_isKeyFound {l : Level} (placed : l.WellPlaced) {log : List Event}
    (told : ∀ c, log.count (.keyCollected c) + (if g.board.hasKey c then 1 else 0) =
      if c ∈ l.keys then 1 else 0) :
    log.countP Event.isKeyFound + boardCells.countP g.board.hasKey = l.keys.toFinset.card := by
  have onBoard {c : Coord} (hc : c ∈ l.keys) : c ∈ boardCells.toFinset :=
    List.mem_toFinset.2 (mem_boardCells.2 (placed.onBoard (placed.keys_within c hc)))
  have collected : (boardCells.map fun c => log.count (.keyCollected c)).sum =
      log.countP Event.isKeyFound := by
    apply sum_count_boardCells (fun _ _ same => Event.keyCollected.inj same)
    · intro e
      cases e <;> simp [Event.isKeyFound]
    · intro c collected
      have counted := List.count_pos_iff.2 collected
      have here := told c
      have listed : c ∈ l.keys := by
        by_contra other
        rw [if_neg other] at here
        omega
      exact mem_boardCells.1 (List.mem_toFinset.1 (onBoard listed))
  have keys : l.keys.toFinset.card =
      ∑ c ∈ boardCells.toFinset, if c ∈ l.keys then 1 else 0 := by
    rw [← Finset.card_filter]
    refine congrArg Finset.card (Finset.ext fun c => ?_)
    rw [Finset.mem_filter, List.mem_toFinset]
    exact ⟨fun listed => ⟨onBoard listed, listed⟩, And.right⟩
  have whole := Finset.sum_congr (Eq.refl boardCells.toFinset) fun c _ => told c
  rwa [Finset.sum_add_distrib, ← sum_boardCells, collected, ← countP_boardCells, ← keys] at whole

theorem Turn.keysTold {levels : List Level} (locked : ∀ l ∈ levels, l.KeysSecure)
    (turn : Turn g g') {past : List Event} (h : g.KeysKept levels (past ++ g.events))
    (loaded : g'.setting.Loaded levels) : g'.KeysTold (past ++ g'.events) := by
  obtain ⟨es, e, l, added, opens, layout, drawn⟩ | rfl := turn.drawn h.loaded
  · obtain ⟨m, _, found, rfl, _⟩ := loaded.layout_eq l layout
    rw [added, ← List.append_assoc]
    exact keysTold_of_drawn (locked m (List.mem_of_getElem? found)) layout drawn opens
  · obtain ⟨secure, told⟩ := h.told
    refine ⟨⟨secure.tiles, secure.puffle⟩, fun l layout c => ?_⟩
    rw [events_finish, events_complete, List.append_assoc, ← List.append_assoc past,
      sinceOpening_append _ (by simp [opensLevel]), List.count_append]
    exact told l layout c

theorem Step.keysTold {levels : List Level} (locked : ∀ l ∈ levels, l.KeysSecure)
    (step : Step g g') {past : List Event} (h : g.KeysKept levels (past ++ g.events)) :
    g'.KeysTold (past ++ g'.events) := by
  have turned (turn : Turn g g') : g'.KeysTold (past ++ g'.events) :=
    turn.keysTold locked h (step.loaded h.loaded)
  obtain ⟨secure, told⟩ := h.told
  obtain ⟨es, added, played⟩ | turn := step.plays h.keyed
  · obtain puffle | turn := step.puffle_cases h.paired
    · by_cases turn : Turn g g'
      · exact turned turn
      · have guards := played.guards
        refine ⟨secure.guards guards puffle, fun l layout c => ?_⟩
        have gone := guards.gone c fun k changed =>
          (step.spares secure added changed).resolve_right turn
        have before := told l ((layout_of_setting played.setting).symm.trans layout) c
        have grown := sinceOpening_append (past ++ g.events) fun e told =>
          opensLevel_of_isOfPlay (played.told e told)
        rw [added, ← List.append_assoc, grown, List.count_append]
        omega
    · exact turned turn
  · exact turned turn

theorem Step.keysKept {levels : List Level} (locked : ∀ l ∈ levels, l.KeysSecure)
    (step : Step g g') {past : List Event} (h : g.KeysKept levels (past ++ g.events)) :
    g'.KeysKept levels (past ++ g'.events) :=
  ⟨step.loaded h.loaded, step.keyed h.keyed, step.paired h.loaded h.keyed h.paired,
    step.keysTold locked h⟩

end Game

/-! ## Runs -/

section
variable {levels : List Level} {rules : Rules} {seed : UInt64} {g₀ : Game} {r : Run}

theorem Run.Reachable.keysKept (new : Game.new levels rules seed = .ok g₀)
    (locked : ∀ l ∈ levels, l.KeysSecure) (h : Run.Reachable g₀ r) :
    r.game.KeysKept levels r.events := by
  have unstarted := Game.unstarted_of_new new
  have bare (c : Coord) : g₀.board.hasKey c = false := by
    rw [unstarted.board, Board.hasKey_empty]
  apply h.invariant unstarted.silent
  · refine ⟨unstarted.loaded, Run.Reachable.start.keyed new,
      (Game.portals_of_empty unstarted.board).paired, ⟨fun c k key => ?_, fun k key => ?_⟩,
      fun l layout => ?_⟩
    · cases (bare c).symm.trans key
    · cases (bare _).symm.trans key
    · cases unstarted.layout.symm.trans layout
  · intro log g kept
    obtain ⟨secure, told⟩ := kept.told
    exact ⟨kept.loaded, kept.keyed, kept.paired, ⟨secure.tiles, secure.puffle⟩, told⟩
  · intro past g g' step kept
    exact step.keysKept locked kept

/-- Where no key lies on the start, on a lock or on a tile of the secret, every key of the level
lies on its cell, is held, or has opened a lock: none is lost and none comes twice. -/
theorem key_conservation (new : Game.new levels rules seed = .ok g₀)
    (accepted : ∀ l ∈ levels, l.Accepted)
    (free : ∀ l ∈ levels, ∀ c ∈ l.keys, c ≠ l.spawn ∧ ∀ alt, (l.variant alt).tileAt c ∉
      [.lock, .fakeTemporaryWall, .fakePassableWall, .fakeImpassableWall])
    (h : Run.Reachable g₀ r) (playing : r.game.phase = .playing) :
    ∃ l, levels[r.game.levelNumber - 1]? = some l ∧
      boardCells.countP r.game.board.hasKey + r.game.puffle.keys +
        (Event.sinceOpening r.events).countP Event.isKeyUsed = l.keys.toFinset.card ∧
      ∀ c, (Event.sinceOpening r.events).count (.keyCollected c) +
        (if r.game.board.hasKey c then 1 else 0) = if c ∈ l.keys then 1 else 0 := by
  have locked : ∀ l ∈ levels, l.KeysSecure := fun l hl =>
    ⟨(accepted l hl).wellPlaced, fun here => (free l hl _ here).1 rfl, fun alt c hc => by
      have other := (free l hl c hc).2 alt
      cases kind : (l.variant alt).tileAt c <;> simp_all [Board.revealed?]⟩
  have kept := h.keysKept new locked
  obtain ⟨l', layout⟩ := kept.loaded.exists_layout playing
  obtain ⟨l, _, found, rfl, _⟩ := kept.loaded.layout_eq l' layout
  have placed := (accepted l (List.mem_of_getElem? found)).wellPlaced
  have told : ∀ c, (Event.sinceOpening r.events).count (.keyCollected c) +
      (if r.game.board.hasKey c then 1 else 0) = if c ∈ l.keys then 1 else 0 :=
    kept.told.told (l.variant _) layout
  have total := Game.countP_isKeyFound placed told
  have held := (h.ledger new playing).keys
  exact ⟨l, found, by omega, told⟩

end

/-- Two keys, of which the first is listed twice and the second lies on a teleporter. -/
def depot : Level where
  origin := .zero
  spawn := .zero
  tiles := .set (.set (.set (.filled 6 1 .empty) 2 0 .lock) 3 0 .teleporter) 5 0 .teleporter
  keys := [⟨1, 0⟩, ⟨5, 0⟩, ⟨1, 0⟩]
  blocks := []
  bag := none
  patches := []

theorem depot_accepted : depot.Accepted := by decide

/-- The first key has opened the lock, and the second still lies under the puffle. -/
theorem key_conservation_in_depot :
    ∃ g₀ r, Game.new [depot] { Rules.standard with puffleMoveTicks := 1 } 0 = .ok g₀ ∧
      Run.Reachable g₀ r ∧ r.game.phase = .playing ∧ r.game.puffle.pos = ⟨5, 0⟩ ∧
      r.game.board.hasKey ⟨5, 0⟩ = true ∧ r.game.puffle.keys = 0 ∧
      (Event.sinceOpening r.events).countP Event.isKeyUsed = 1 ∧
      depot.keys.toFinset.card = 2 ∧ boardCells.countP r.game.board.hasKey = 1 := by
  obtain ⟨g₀, new⟩ : ∃ g₀, Game.new [depot] { Rules.standard with puffleMoveTicks := 1 } 0 =
      .ok g₀ := ⟨_, rfl⟩
  let r := (.start 1 :: List.replicate 3 (.tick (.hold .right))).foldl Run.act (.start g₀)
  have reached : Run.Reachable g₀ r := .actions _
  have played : r.game.phase = .playing ∧ r.game.puffle.pos = ⟨5, 0⟩ ∧
      r.game.board.hasKey ⟨5, 0⟩ = true ∧ r.game.puffle.keys = 0 ∧
      (Event.sinceOpening r.events).countP Event.isKeyUsed = 1 ∧ r.game.levelNumber = 1 := by
    cases new
    decide +kernel
  obtain ⟨playing, pos, key, keys, used, number⟩ := played
  have accepted : ∀ l ∈ [depot], l.Accepted := by simpa using depot_accepted
  obtain ⟨l, found, sum, _⟩ := key_conservation new accepted (by decide) reached playing
  have distinct : depot.keys.toFinset.card = 2 := by decide
  rw [number] at found
  cases found
  exact ⟨g₀, r, new, reached, playing, pos, key, keys, used, distinct, by omega⟩

end IceMaze
