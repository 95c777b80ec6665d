import IceMaze.Proofs.Play.Ledger

/-!
The course of a game: which levels are started, failed and completed, and in which order.

The milestones are the events that tell of it. What one tick can tell is `Tells`. From that,
`Stands` says where a game stands: in a level, with the levels before it completed one after the
other, or at the end of all of them.

The failures of a level are counted in 32 bits. The course has the count that is told, so it stays
true where the count starts again at 0.
-/

namespace IceMaze

/-- What an event can say of the course of a game. -/
inductive Milestone where
  | started (number : Nat)
  | failed (number : Nat) (times : UInt32)
  | completed (number : Nat)
  /-- All levels are completed. -/
  | concluded
  deriving DecidableEq

def Event.milestone? : Event → Option Milestone
  | .levelStarted number _ => some (.started number)
  | .levelReset number times => some (.failed number times)
  | .levelCompleted number _ _ => some (.completed number)
  | .allLevelsComplete _ => some .concluded
  | _ => none

def milestones (log : List Event) : List Milestone := log.filterMap Event.milestone?

namespace Milestone

def isStart : Milestone → Bool
  | .started _ => true
  | _ => false

def isFailure : Milestone → Bool
  | .failed .. => true
  | _ => false

/-- A level is failed so many times, and each failure is told with its number, in 32 bits. -/
def failures (number times : Nat) : List Milestone :=
  (List.range times).map fun k => .failed number (UInt32.ofNat (k + 1))

/-- A level from its start to its completion. -/
def chapter (number times : Nat) : List Milestone :=
  .started number :: failures number times ++ [.completed number]

/-- Levels one after the other, each failed as often as the list says. -/
def chapters : Nat → List Nat → List Milestone
  | _, [] => []
  | number, times :: rest => chapter number times ++ chapters (number + 1) rest

theorem failures_succ (number times : Nat) :
    failures number (times + 1) =
      failures number times ++ [.failed number (UInt32.ofNat (times + 1))] := by
  simp [failures, List.range_succ]

theorem chapters_append (number : Nat) (done rest : List Nat) :
    chapters number (done ++ rest) =
      chapters number done ++ chapters (number + done.length) rest := by
  induction done generalizing number with
  | nil => rfl
  | cons times done ih =>
    have next : number + 1 + done.length = number + (done.length + 1) := by omega
    simp only [List.cons_append, chapters, ih, List.length_cons, next, List.append_assoc]

theorem chapters_concat (number : Nat) (done : List Nat) (times : Nat) :
    chapters number (done ++ [times]) =
      chapters number done ++ .started (number + done.length) ::
        failures (number + done.length) times ++ [.completed (number + done.length)] := by
  simp [chapters_append, chapters, chapter]

theorem concluded_not_mem_failures (number times : Nat) : concluded ∉ failures number times := by
  simp [failures]

theorem concluded_not_mem_chapters (number : Nat) (done : List Nat) :
    concluded ∉ chapters number done := by
  induction done generalizing number with
  | nil => simp [chapters]
  | cons times done ih => simp [chapters, chapter, concluded_not_mem_failures, ih]

theorem countP_failures (number times : Nat) :
    (failures number times).countP isFailure = times := by
  have all : ∀ m ∈ failures number times, m.isFailure = true := by simp [failures, isFailure]
  rw [List.countP_eq_length.2 all]
  simp [failures]

end Milestone

open Milestone

section
variable {log es : List Event}

theorem milestones_append (log es : List Event) :
    milestones (log ++ es) = milestones log ++ milestones es := List.filterMap_append

/-- Play within a level is no milestone. -/
theorem milestones_of_play (play : ∀ e ∈ es, e.isOfPlay = true) : milestones es = [] := by
  refine List.filterMap_eq_nil_iff.2 fun e here => ?_
  have play := play e here
  cases e with
  | levelStarted | levelReset | levelCompleted | allLevelsComplete => cases play
  | _ => rfl

theorem concluded_mem_milestones {i score : Nat}
    (told : log[i]? = some (.allLevelsComplete score)) : .concluded ∈ milestones log :=
  List.mem_filterMap.2 ⟨_, List.mem_of_getElem? told, rfl⟩

/-- How often a level has been failed since the last start. -/
def failuresSinceStart (log : List Event) : Nat :=
  ((milestones log).rtakeWhile fun m => !m.isStart).countP isFailure

theorem failuresSinceStart_eq {past : List Milestone} {number times : Nat}
    (told : milestones log = past ++ .started number :: failures number times) :
    failuresSinceStart log = times := by
  have after : ∀ m ∈ failures number times, (!m.isStart) = true := by simp [failures, isStart]
  have since : (past ++ [started number] ++ failures number times).rtakeWhile
      (fun m => !m.isStart) = failures number times := by
    rw [rtakeWhile_append _ after, List.rtakeWhile_concat]
    rfl
  rw [failuresSinceStart, told, List.append_cons, since, countP_failures]

/-- Each report of a stuck puffle is answered by a reset at once. -/
def Answered (log : List Event) : Prop :=
  ∀ i c, log[i]? = some (.stuck c) →
    ∃ number times, log[i + 1]? = some (.levelReset number times)

theorem answered_of_forall (h : ∀ e ∈ es, ∀ c, e ≠ .stuck c) : Answered es := by
  intro i c stuck
  exact absurd rfl (h _ (List.mem_of_getElem? stuck) c)

theorem Answered.append (first : Answered log) (second : Answered es) :
    Answered (log ++ es) := by
  intro i c stuck
  by_cases within : i < log.length
  · rw [List.getElem?_append_left within] at stuck
    obtain ⟨number, times, reset⟩ := first i c stuck
    have next := (List.getElem?_eq_some_iff.1 reset).1
    exact ⟨number, times, by rw [List.getElem?_append_left next, reset]⟩
  · rw [List.getElem?_append_right (by omega)] at stuck
    obtain ⟨number, times, reset⟩ := second _ c stuck
    refine ⟨number, times, ?_⟩
    rw [List.getElem?_append_right (by omega), ← reset]
    congr 1
    omega

theorem not_stuck_of_play (play : ∀ e ∈ es, e.isOfPlay = true) :
    ∀ e ∈ es, ∀ c, e ≠ .stuck c := by
  rintro e here c rfl
  cases play _ here

end

namespace Game

variable {g g' : Game} {input : Input} {levels : List Level}

/-! ## What one tick tells -/

/-- What a tick of a game in play can tell, and what becomes of the game. -/
inductive Tells (g : Game) : List Event → Game → Prop where
  | play {es g'} (play : ∀ e ∈ es, e.isOfPlay = true) (setting : g'.setting = g.setting) :
      Tells g es g'
  | restart {es g'} (play : ∀ e ∈ es, e.isOfPlay = true)
      (setting : g'.setting = { g.setting with timesFailed := g.timesFailed + 1 }) :
      Tells g (es ++ [.levelReset g.levelNumber (g.timesFailed + 1)]) g'
  | fail {es c g'} (play : ∀ e ∈ es, e.isOfPlay = true)
      (setting : g'.setting = { g.setting with timesFailed := g.timesFailed + 1 }) :
      Tells g (es ++ [.stuck c, .levelReset g.levelNumber (g.timesFailed + 1)]) g'
  | next {es solved points alt g'} (play : ∀ e ∈ es, e.isOfPlay = true)
      (found : ∃ l, g.level? (g.levelNumber + 1) = some l) (playing : g'.phase = .playing)
      (number : g'.levelNumber = g.levelNumber + 1) (fresh : g'.timesFailed = 0) :
      Tells g (es ++ [.levelCompleted g.levelNumber solved points,
        .levelStarted (g.levelNumber + 1) alt]) g'
  | conclude {es solved points score g'} (play : ∀ e ∈ es, e.isOfPlay = true)
      (last : g.level? (g.levelNumber + 1) = none) (finished : g'.phase = .finished) :
      Tells g (es ++ [.levelCompleted g.levelNumber solved points, .allLevelsComplete score]) g'

theorem Outcome.tells {l : Level} (outcome : Outcome g input g') (playing : g.phase = .playing)
    (layout : g.layout = some l) : Tells g g'.events g' := by
  have played {h : Game} (plays : { g with events := [] }.PlaysOn h) :
      (∀ e ∈ h.events, e.isOfPlay = true) ∧ h.setting = g.setting := by
    obtain ⟨es, told, plays⟩ := plays
    exact ⟨told ▸ plays.told, plays.setting⟩
  cases outcome with
  | goesOn _ plays =>
    obtain ⟨play, setting⟩ := played plays
    exact .play play setting
  | @restart h _ plays =>
    obtain ⟨play, setting⟩ := played plays
    have playing' : h.phase = .playing := (phase_of_setting setting).trans playing
    have layout' : h.layout = some l := (layout_of_setting setting).trans layout
    have number : h.levelNumber = g.levelNumber := levelNumber_of_setting setting
    have failed : h.timesFailed = g.timesFailed := timesFailed_of_setting setting
    rw [h.events_resetLevel_of_playing playing' layout', number, failed]
    apply Tells.restart play
    rw [h.setting_resetLevel_of_playing playing' layout', setting, failed]
  | @fail h _ plays =>
    obtain ⟨play, setting⟩ := played plays
    have playing' : h.reportStuck.phase = .playing := (phase_of_setting setting).trans playing
    have layout' : h.reportStuck.layout = some l := (layout_of_setting setting).trans layout
    have number : h.reportStuck.levelNumber = g.levelNumber := levelNumber_of_setting setting
    have failed : h.reportStuck.timesFailed = g.timesFailed := timesFailed_of_setting setting
    rw [events_resetLevel_of_playing _ playing' layout', events_reportStuck, number, failed,
      List.append_assoc]
    apply Tells.fail play
    rw [setting_resetLevel_of_playing _ playing' layout', setting_reportStuck, setting, failed]
  | @goal h _ plays =>
    obtain ⟨play, setting⟩ := played plays
    have number : h.levelNumber = g.levelNumber := levelNumber_of_setting setting
    have after := nextLevel?_congr setting
    obtain ⟨l, found, next⟩ | ⟨last, ended⟩ := h.goToNextLevel_cases
    · rw [next, events_load, events_complete, List.append_assoc, number]
      exact .next play ⟨l, after ▸ found⟩ (phase_load _ _ _) (levelNumber_load _ _ _)
        (timesFailed_load _ _ _)
    · rw [ended, events_finish, events_complete, List.append_assoc, number]
      exact .conclude play (after ▸ last) rfl

theorem Tells.answered {es : List Event} (tells : Tells g es g') : Answered es := by
  cases tells with
  | play play => exact answered_of_forall (not_stuck_of_play play)
  | restart play | next play | conclude play =>
    exact (answered_of_forall (not_stuck_of_play play)).append (answered_of_forall (by simp))
  | fail play =>
    refine (answered_of_forall (not_stuck_of_play play)).append fun i c stuck => ?_
    match i with
    | 0 => exact ⟨_, _, rfl⟩
    | 1 => cases stuck

theorem Tells.setting_of_reset {es : List Event} (tells : Tells g es g') {number : Nat}
    {times : UInt32} (told : .levelReset number times ∈ es) :
    g'.setting = { g.setting with timesFailed := g.timesFailed + 1 } := by
  cases tells with
  | play play => cases play _ told
  | restart _ setting | fail _ setting => exact setting
  | next play | conclude play =>
    obtain played | ended := List.mem_append.1 told
    · cases play _ played
    · simp at ended

/-! ## Where a game stands -/

/-- Where a game stands that was started at level `n`, and what its events say of that. -/
inductive Stands (levels : List Level) (n : Nat) (log : List Event) (g : Game) : Prop where
  | playing (done : List Nat) (times : Nat) (phase : g.phase = .playing)
      (number : g.levelNumber = n + done.length) (found : g.levelNumber ≤ levels.length)
      (failed : g.timesFailed = UInt32.ofNat times)
      (told : milestones log = chapters n done ++
        .started g.levelNumber :: failures g.levelNumber times)
  | concluded (done : List Nat) (phase : g.phase = .finished)
      (all : n + done.length = levels.length + 1)
      (told : milestones log = chapters n done ++ [.concluded])
      (last : ∃ past score, log = past ++ [.allLevelsComplete score])

variable {n : Nat} {log : List Event}

theorem stands_load {l : Level} (found : n ≤ levels.length) :
    Stands levels n [.levelStarted n (g.flipCoin l).1] (g.load n l) := by
  have number := g.levelNumber_load n l
  refine .playing [] 0 (g.phase_load n l) number (by rwa [number]) (g.timesFailed_load n l) ?_
  rw [number]
  rfl

/-- A tick of a game in play leads on in the course. -/
theorem Stands.tells {es : List Event} (h : Stands levels n log g) (playing : g.phase = .playing)
    (registry : g.levels = levels) (tells : Tells g es g') : Stands levels n (log ++ es) g' := by
  cases h with
  | concluded _ finished => cases playing.symm.trans finished
  | playing done times _ number found counted told =>
    have told' : milestones (log ++ es) = chapters n done ++
        .started g.levelNumber :: failures g.levelNumber times ++ milestones es := by
      rw [milestones_append, told]
    have failed (setting : g'.setting = { g.setting with timesFailed := g.timesFailed + 1 })
        (once : milestones es = [.failed g.levelNumber (g.timesFailed + 1)]) :
        Stands levels n (log ++ es) g' := by
      have number' : g'.levelNumber = g.levelNumber := congrArg Setting.levelNumber setting
      have more : g'.timesFailed = g.timesFailed + 1 := congrArg Setting.timesFailed setting
      have again : g.timesFailed + 1 = UInt32.ofNat (times + 1) := by
        rw [counted, UInt32.ofNat_add]
        rfl
      refine .playing done (times + 1) ((congrArg Setting.phase setting).trans playing)
        (number'.trans number) (number' ▸ found) (more.trans again) ?_
      rw [told', once, number', again, failures_succ]
      simp
    cases tells with
    | play play setting =>
      have number' : g'.levelNumber = g.levelNumber := levelNumber_of_setting setting
      have same : g'.timesFailed = g.timesFailed := timesFailed_of_setting setting
      refine .playing done times ((phase_of_setting setting).trans playing)
        (number'.trans number) (number' ▸ found) (same.trans counted) ?_
      rw [told', milestones_of_play play, List.append_nil, number']
    | restart play setting =>
      apply failed setting
      rw [milestones_append, milestones_of_play play]
      rfl
    | fail play setting =>
      apply failed setting
      rw [milestones_append, milestones_of_play play]
      rfl
    | @next es solved points alt _ play next playing' number' fresh =>
      obtain ⟨l, next⟩ := next
      have within := (List.getElem?_eq_some_iff.1 (level?_eq_some.1 next).2).1
      rw [registry] at within
      refine .playing (done ++ [times]) 0 playing' ?_ (by omega) fresh ?_
      · rw [number', number, List.length_append, Nat.add_assoc]
        rfl
      · rw [told', milestones_append, milestones_of_play play, chapters_concat, number', ← number]
        simp [milestones, Event.milestone?, failures]
    | @conclude es solved points score _ play last finished =>
      have beyond : levels.length ≤ g.levelNumber := by
        simpa [level?, registry] using last
      refine .concluded (done ++ [times]) finished ?_ ?_ ?_
      · rw [List.length_append, List.length_singleton]
        omega
      · rw [told', milestones_append, milestones_of_play play, chapters_concat, ← number]
        simp [milestones, Event.milestone?]
      · exact ⟨log ++ (es ++ [.levelCompleted g.levelNumber solved points]), score, by simp⟩

/-! ## Patches -/

/-- A level without patches is played as it is. -/
def Unaltered (levels : List Level) (g : Game) : Prop :=
  ∀ l, levels[g.levelNumber - 1]? = some l → l.patches = [] → g.altApplied = false

theorem Unaltered.congr (h : g.Unaltered levels) (number : g'.levelNumber = g.levelNumber)
    (alt : g'.altApplied = g.altApplied) : g'.Unaltered levels := by
  intro l found plain
  rw [alt]
  exact h l (number ▸ found) plain

theorem unaltered_load {l : Level} (registry : g.levels = levels) (found : g.level? n = some l) :
    (g.load n l).Unaltered levels := by
  intro k here plain
  rw [levelNumber_load, ← registry, (level?_eq_some.1 found).2] at here
  cases here
  rw [altApplied_load, g.flipCoin_of_plain plain]

theorem Step.unaltered (step : Step g g') (registry : g.levels = levels)
    (h : g.Unaltered levels) : g'.Unaltered levels := by
  obtain same | ⟨f, same, rfl⟩ | ⟨f, m, l, from_, found, rfl⟩ | ⟨_, rfl⟩ := step.setting_cases
  · exact h.congr (congrArg Setting.levelNumber same) (congrArg Setting.altApplied same)
  · obtain ⟨_, retried⟩ := f.retries_resetLevel
    rw [same] at retried
    exact h.congr (congrArg Setting.levelNumber retried) (congrArg Setting.altApplied retried)
  · apply unaltered_load _ found
    obtain rfl | rfl := from_ <;> exact registry
  · exact h.congr rfl rfl

end Game

/-! ## Runs -/

section
variable {levels : List Level} {rules : Rules} {seed : UInt64} {g₀ : Game} {r : Run} {n : Nat}

theorem Run.Reachable.unaltered (new : Game.new levels rules seed = .ok g₀)
    (h : Run.Reachable g₀ r) : r.game.Unaltered levels := by
  have unstarted := Game.unstarted_of_new new
  have fresh : g₀.altApplied = false := by
    unfold Game.new at new
    split at new <;> cases new
    rfl
  have both := h.game_invariant (Q := fun g => g.setting.Loaded levels ∧ g.Unaltered levels)
    unstarted.silent ⟨unstarted.loaded, fun _ _ _ => fresh⟩ (fun _ => id)
    fun _ _ step ⟨loaded, plain⟩ => ⟨step.loaded loaded, step.unaltered loaded.levels_eq plain⟩
  exact both.2

/-- What a tick of a run tells. -/
theorem Run.Reachable.tells (new : Game.new levels rules seed = .ok g₀)
    (h : Run.Reachable g₀ r) (playing : r.game.phase = .playing) (input : Input) :
    r.game.Tells (r.game.tick input).events (r.game.tick input) := by
  obtain ⟨l, layout⟩ := (h.loaded new).exists_layout playing
  exact (Game.outcome_tick playing (h.keyed new) input).tells playing layout

theorem Run.Reachable.stands_tick (new : Game.new levels rules seed = .ok g₀)
    (h : Run.Reachable g₀ r) (stands : r.game.Stands levels n r.events) (input : Input) :
    (r.tick input).game.Stands levels n (r.tick input).events := by
  by_cases playing : r.game.phase = .playing
  · exact stands.tells playing (h.loaded new).levels_eq (h.tells new playing input)
  · rw [Run.tick, Game.tick_idle playing, List.append_nil]
    cases stands with
    | playing _ _ phase => exact absurd phase playing
    | concluded done finished all told last => exact .concluded done finished all told last

theorem Run.Reachable.answered_tick (new : Game.new levels rules seed = .ok g₀)
    (h : Run.Reachable g₀ r) (answered : Answered r.events) (input : Input) :
    Answered (r.tick input).events := by
  by_cases playing : r.game.phase = .playing
  · exact answered.append (h.tells new playing input).answered
  · rwa [Run.tick, Game.tick_idle playing, List.append_nil]

theorem Game.Stands.starts {g : Game} {log : List Event} (h : g.Stands levels n log)
    (found : n ≤ levels.length) : [.started n] <+: milestones log := by
  cases h with
  | playing done _ _ number _ _ told =>
    rw [told]
    cases done with
    | nil => simp [chapters, number]
    | cons => simp [chapters, chapter]
  | concluded done _ all told =>
    rw [told]
    cases done with
    | nil =>
      rw [List.length_nil] at all
      omega
    | cons => simp [chapters, chapter]

/-- The milestones are the beginning of a course. -/
theorem Game.Stands.follows {g : Game} {log : List Event} (h : g.Stands levels n log) :
    ∃ done, n + done.length = levels.length + 1 ∧
      milestones log <+: chapters n done ++ [.concluded] := by
  cases h with
  | playing done times _ number found _ told =>
    -- the levels after the one in play may still be completed at the first try
    let rest := List.replicate (levels.length - g.levelNumber) 0
    refine ⟨done ++ times :: rest, ?_, ?_⟩
    · simp only [rest, List.length_append, List.length_cons, List.length_replicate]
      omega
    · rw [told, chapters_append, ← number, List.append_assoc, List.prefix_append_right_inj]
      simp [chapters, chapter]
  | concluded done _ all told => exact ⟨done, all, told ▸ List.prefix_rfl⟩

/-- The end of the course is the end of the events. -/
theorem Game.Stands.ends {g : Game} {log : List Event} (h : g.Stands levels n log) {i score : Nat}
    (ended : log[i]? = some (.allLevelsComplete score)) : i + 1 = log.length := by
  cases h with
  | playing done _ _ _ _ _ told =>
    have unfinished : .concluded ∉ milestones log := by
      simp [told, concluded_not_mem_chapters, concluded_not_mem_failures]
    exact absurd (concluded_mem_milestones ended) unfinished
  | concluded done _ _ told last =>
    obtain ⟨past, _, rfl⟩ := last
    have before : milestones past = chapters n done := by
      rw [milestones_append] at told
      exact List.append_cancel_right told
    have within := (List.getElem?_eq_some_iff.1 ended).1
    rw [List.length_append, List.length_singleton] at within ⊢
    suffices past.length ≤ i by omega
    by_contra early
    rw [List.getElem?_append_left (by omega)] at ended
    exact concluded_not_mem_chapters n done (before ▸ concluded_mem_milestones ended)

theorem Game.Stands.failures {g : Game} {log : List Event} (h : g.Stands levels n log)
    (playing : g.phase = .playing) : g.timesFailed = UInt32.ofNat (failuresSinceStart log) := by
  cases h with
  | playing _ _ _ _ _ failed told => rw [failed, failuresSinceStart_eq told]
  | concluded _ finished => cases playing.symm.trans finished

/-- Levels are started, failed and completed in order, and nothing follows the completion of the
last one. While a level is in play, its number, its failures, its layout and its total are what the
events and the registry say. The failures are counted in 32 bits, so their number is the one of the
events as long as 32 bits hold it. -/
theorem course_of_levels (new : Game.new levels rules seed = .ok g₀)
    (first : 1 ≤ n ∧ n ≤ levels.length) (inputs : List Input) :
    let r := inputs.foldl Run.tick ((Run.start g₀).act (.start n))
    let g := r.game
    (∃ done, n + done.length = levels.length + 1 ∧ [.started n] <+: milestones r.events ∧
      milestones r.events <+: chapters n done ++ [.concluded]) ∧
    (∀ i score, r.events[i]? = some (.allLevelsComplete score) → i + 1 = r.events.length) ∧
    Answered r.events ∧
    (g.phase = .playing →
      (1 ≤ g.levelNumber ∧ g.levelNumber ≤ levels.length) ∧
      g.timesFailed = UInt32.ofNat (failuresSinceStart r.events) ∧
      (failuresSinceStart r.events < UInt32.size →
        g.timesFailed.toNat = failuresSinceStart r.events) ∧
      ∃ l, levels[g.levelNumber - 1]? = some l ∧ g.layout = some (l.variant g.altApplied) ∧
        (l.patches = [] → g.altApplied = false) ∧
        g.total = (l.variant g.altApplied).totalTileCount) ∧
    ∀ input number times, .levelReset number times ∈ (g.tick input).events →
      (g.tick input).setting = { g.setting with timesFailed := g.timesFailed + 1 } := by
  intro r g
  let r₁ := (Run.start g₀).act (.start n)
  have started : Run.Reachable g₀ r₁ := .next (.start n) .start
  have reached : Run.Reachable g₀ r := started.ticked inputs
  obtain ⟨l, found⟩ : ∃ l, g₀.level? n = some l := by
    have within : n - 1 < levels.length := by omega
    refine ⟨levels[n - 1], Game.level?_eq_some.2 ⟨first.1, ?_⟩⟩
    rw [(Game.unstarted_of_new new).levels_eq, List.getElem?_eq_getElem within]
  have invariant : g.Stands levels n r.events ∧ Answered r.events := by
    suffices Run.Reachable g₀ r ∧ g.Stands levels n r.events ∧ Answered r.events from this.2
    refine List.foldlRecOn (motive := fun r => Run.Reachable g₀ r ∧
      r.game.Stands levels n r.events ∧ Answered r.events) _ _ ⟨started, ?_⟩ ?_
    · rw [Run.start_eq new found]
      exact ⟨Game.stands_load first.2, answered_of_forall (by simp)⟩
    · rintro r ⟨reached, stands, answered⟩ input _
      exact ⟨.next (.tick input) reached, reached.stands_tick new stands input,
        reached.answered_tick new answered input⟩
  obtain ⟨stands, answered⟩ := invariant
  obtain ⟨done, all, begun⟩ := stands.follows
  refine ⟨⟨done, all, stands.starts first.2, begun⟩, fun i score => stands.ends, answered, ?_, ?_⟩
  · intro playing
    have loaded := reached.loaded new
    obtain ⟨layout, current⟩ := loaded.exists_layout playing
    obtain ⟨l, positive, here, rfl, total⟩ := loaded.layout_eq layout current
    have within := (List.getElem?_eq_some_iff.1 here).1
    have number : g.levelNumber - 1 < levels.length := within
    have failures := stands.failures playing
    have exactly (few : failuresSinceStart r.events < UInt32.size) :
        g.timesFailed.toNat = failuresSinceStart r.events := by
      rw [failures, UInt32.toNat_ofNat_of_lt' few]
    refine ⟨⟨positive, by omega⟩, failures, exactly, l, here, current, ?_, total⟩
    exact reached.unaltered new l here
  · intro input number times told
    by_cases playing : g.phase = .playing
    · exact (reached.tells new playing input).setting_of_reset told
    · rw [Game.tick_idle playing] at told
      cases told

end

/-- The first level is completed. The second ends in its dead end, and is given up once more. -/
theorem course_of_doorstep_and_pond :
    ∃ g₀ r, Game.new [doorstep, pond] { Rules.standard with puffleMoveTicks := 1 } 0 = .ok g₀ ∧
      r = [.hold .right, .hold .right, .restart].foldl Run.tick ((Run.start g₀).act (.start 1)) ∧
      milestones r.events =
        [.started 1, .completed 1, .started 2, .failed 2 1, .failed 2 2] ∧
      (∃ done, 1 + done.length = 3 ∧ milestones r.events <+: chapters 1 done ++ [.concluded]) ∧
      Answered r.events ∧ r.game.levelNumber = 2 ∧ failuresSinceStart r.events = 2 ∧
      r.game.total = (pond.variant r.game.altApplied).totalTileCount := by
  let inputs : List Input := [.hold .right, .hold .right, .restart]
  obtain ⟨g₀, new⟩ : ∃ g₀,
      Game.new [doorstep, pond] { Rules.standard with puffleMoveTicks := 1 } 0 = .ok g₀ := ⟨_, rfl⟩
  let r := inputs.foldl Run.tick ((Run.start g₀).act (.start 1))
  have played : milestones r.events =
        [.started 1, .completed 1, .started 2, .failed 2 1, .failed 2 2] ∧
      r.game.phase = .playing ∧ r.game.levelNumber = 2 ∧ r.game.timesFailed.toNat = 2 ∧
      failuresSinceStart r.events < UInt32.size := by
    cases new
    decide +kernel
  obtain ⟨told, playing, number, failed, few⟩ := played
  have first : 1 ≤ 1 ∧ 1 ≤ [doorstep, pond].length := by decide
  obtain ⟨⟨done, all, _, begun⟩, _, answered, state, _⟩ := course_of_levels new first inputs
  obtain ⟨_, _, exactly, l, here, _, _, total⟩ := state playing
  rw [number] at here
  cases here
  exact ⟨g₀, r, new, rfl, told, ⟨done, all, begun⟩, answered, number,
    (exactly few).symm.trans failed, total⟩

end IceMaze
