import IceMaze.Proofs.Play.Ledger
import Mathlib.Logic.Function.Iterate

/-!
Which levels are loaded with their patches.

A level with patches takes two random words when it is loaded, and nothing else takes any
(`Draws`). So the choice depends on the seed and on the levels loaded so far (`tosses`), and not on
how they are played.
-/

namespace IceMaze

/-! ## Tosses -/

/-- The level of a number has patches. -/
def isPatched (levels : List Level) (number : Nat) : Bool :=
  levels[number - 1]?.any fun l => !l.patches.isEmpty

/-- Whether the level of a number is loaded with its patches, and the generator after that. -/
def toss (levels : List Level) (chance : Float) (x : Random) (number : Nat) : Bool × Random :=
  if isPatched levels number then (x.nextFloat.1 < chance, x.nextFloat.2) else (false, x)

/-- Levels that are loaded one after the other, each with whether its patches are applied. -/
def tosses (levels : List Level) (chance : Float) : Random → List Nat → List (Nat × Bool)
  | _, [] => []
  | x, n :: ns =>
    (n, (toss levels chance x n).1) :: tosses levels chance (toss levels chance x n).2 ns

section
variable {levels : List Level} {chance : Float} {x : Random}

theorem tosses_numbers (ns : List Nat) : (tosses levels chance x ns).map Prod.fst = ns := by
  induction ns generalizing x with
  | nil => rfl
  | cons n ns ih => rw [tosses, List.map_cons, ih]

theorem toss_random (n : Nat) :
    (toss levels chance x n).2 =
      (fun x => x.nextWord.2)^[2 * if isPatched levels n then 1 else 0] x := by
  unfold toss
  split <;> rfl

end

/-- The starts of levels that the events tell of, each with whether its patches are applied. -/
def Event.start? : Event → Option (Nat × Bool)
  | .levelStarted number alt => some (number, alt)
  | _ => none

def starts (log : List Event) : List (Nat × Bool) := log.filterMap Event.start?

theorem starts_nil : starts [] = [] := rfl

theorem starts_append (log es : List Event) : starts (log ++ es) = starts log ++ starts es :=
  List.filterMap_append

theorem starts_of_play {es : List Event} (play : ∀ e ∈ es, e.isOfPlay = true) :
    starts es = [] := by
  refine List.filterMap_eq_nil_iff.2 fun e here => ?_
  have play := play e here
  cases e with
  | levelStarted => cases play
  | _ => rfl

namespace Game

variable {g g' : Game}

/-! ## Loads -/

/-- The level that an action asks for: by its number, as the next one, or by landing on a goal. -/
def asksFor (g : Game) : Action → Option Nat
  | .start n => some n
  | .next => some (g.levelNumber + 1)
  | .tick input => if g.reachesGoal input then some (g.levelNumber + 1) else none
  | .reset | .attempt _ => none

/-- The number of the level that an action loads. -/
def loads? (g : Game) (a : Action) : Option Nat :=
  (g.asksFor a).filter fun n => (g.level? n).isSome

/-- The numbers of the levels that are loaded one after the other. -/
def loaded (g : Game) : List Action → List Nat
  | [] => []
  | a :: as => (g.loads? a).toList ++ (g.act a).loaded as

theorem loads?_eq_some {a : Action} {n : Nat} :
    g.loads? a = some n ↔ g.asksFor a = some n ∧ ∃ l, g.level? n = some l := by
  simp [loads?, Option.filter_eq_some_iff, Option.isSome_iff_exists]

theorem loads?_eq_none {a : Action} {n : Nat} (asks : g.asksFor a = some n)
    (missing : g.level? n = none) : g.loads? a = none := by
  simp [loads?, asks, missing]

/-! ## The generator -/

theorem flipCoin_eq {levels : List Level} {n : Nat} {l : Level} (registry : g.levels = levels)
    (found : g.level? n = some l) :
    g.flipCoin l = toss levels g.rules.altPatchChance g.random n := by
  have here : levels[n - 1]? = some l := registry ▸ (level?_eq_some.1 found).2
  unfold flipCoin toss isPatched
  rw [here, Option.any_some]
  by_cases plain : l.patches = []
  · simp [plain]
  · simp [plain]

theorem flipCoin_congr (random : g'.random = g.random) (rules : g'.rules = g.rules) (l : Level) :
    g'.flipCoin l = g.flipCoin l := by
  unfold flipCoin
  rw [random, rules]

/-- What an action tells of starts and does to the generator. -/
inductive Draws (g : Game) (a : Action) (es : List Event) (g' : Game) : Prop where
  | still (none : g.loads? a = none) (told : starts es = []) (random : g'.random = g.random)
  | load {n l} (loads : g.loads? a = some n) (found : g.level? n = some l)
      (told : starts es = [(n, (g.flipCoin l).1)]) (random : g'.random = (g.flipCoin l).2)

theorem Draws.of_setting {a : Action} {es : List Event} (none : g.loads? a = none)
    (setting : g.setting.Retries g'.setting) (told : starts es = []) : g.Draws a es g' := by
  obtain ⟨_, setting⟩ := setting
  exact .still none told (congrArg Setting.random setting)

/-- The next level is asked for, after what has told of no start. -/
theorem draws_goToNextLevel {h : Game} {a : Action} {es : List Event}
    (asks : g.asksFor a = some (g.levelNumber + 1)) (setting : h.setting = g.setting)
    (told : starts es = []) :
    ∃ fs, h.goToNextLevel.events = h.events ++ fs ∧ g.Draws a (es ++ fs) h.goToNextLevel := by
  have number : h.levelNumber = g.levelNumber := levelNumber_of_setting setting
  have random : h.random = g.random := random_of_setting setting
  have rules : h.rules = g.rules := rules_of_setting setting
  have after := nextLevel?_congr setting
  obtain ⟨l, found, next⟩ | ⟨last, ended⟩ := h.goToNextLevel_cases
  · have coin : h.complete.flipCoin l = g.flipCoin l := flipCoin_congr random rules l
    rw [after] at found
    rw [next, events_load, events_complete, List.append_assoc]
    refine ⟨_, rfl, .load (loads?_eq_some.2 ⟨asks, l, found⟩) found ?_ ?_⟩
    · rw [starts_append, told, coin, number]
      rfl
    · rw [random_load, coin]
  · rw [ended, events_finish, events_complete, List.append_assoc]
    refine ⟨_, rfl, .still (loads?_eq_none asks (after ▸ last)) ?_ random⟩
    rw [starts_append, told]
    rfl

theorem draws_resetLevel {h : Game} {a : Action} {es : List Event} (none : g.loads? a = none)
    (setting : h.setting = g.setting) (told : starts es = []) :
    ∃ fs, h.resetLevel.events = h.events ++ fs ∧ g.Draws a (es ++ fs) h.resetLevel := by
  refine ⟨_, h.events_resetLevel, .of_setting none (setting ▸ h.retries_resetLevel) ?_⟩
  rw [starts_append, told]
  split <;> rfl

theorem draws_tick {input : Input} (keyed : g.Keyed) :
    g.Draws (.tick input) (g.tick input).events (g.tick input) := by
  by_cases playing : g.phase = .playing
  · have played {h : Game} (plays : { g with events := [] }.PlaysOn h) :
        starts h.events = [] ∧ h.setting = g.setting := by
      obtain ⟨es, told, plays⟩ := plays
      exact ⟨told ▸ starts_of_play plays.told, plays.setting⟩
    have asks_of_short (short : g.reachesGoal input = false) :
        g.loads? (.tick input) = none := by
      simp [loads?, asksFor, short]
    have outcome := outcome_tick playing keyed input
    generalize g.tick input = g' at outcome
    cases outcome with
    | goesOn short plays =>
      obtain ⟨told, setting⟩ := played plays
      exact .of_setting (asks_of_short short) (.of_eq setting) told
    | restart short plays =>
      obtain ⟨told, setting⟩ := played plays
      obtain ⟨fs, added, draws⟩ := draws_resetLevel (asks_of_short short) setting told
      rwa [added]
    | @fail h short plays =>
      obtain ⟨told, setting⟩ := played plays
      have told' : starts h.reportStuck.events = [] := by
        rw [events_reportStuck, starts_append, told]
        rfl
      have setting' : h.reportStuck.setting = g.setting := setting
      obtain ⟨fs, added, draws⟩ := draws_resetLevel (asks_of_short short) setting' told'
      rwa [added]
    | goal reaches plays =>
      obtain ⟨told, setting⟩ := played plays
      have asks : g.asksFor (.tick input) = some (g.levelNumber + 1) := if_pos reaches
      obtain ⟨fs, added, draws⟩ := draws_goToNextLevel asks setting told
      rwa [added]
  · have short : g.reachesGoal input = false := by simp [reachesGoal, landsOn?, playing]
    rw [tick_idle playing]
    exact .still (by simp [loads?, asksFor, short]) rfl rfl

theorem draws_act {a : Action} (h : ∀ input, a ≠ .tick input) :
    ∃ es, (g.act a).events = g.events ++ es ∧ g.Draws a es (g.act a) := by
  cases a with
  | tick input => exact absurd rfl (h input)
  | start n =>
    rw [act, startLevel]
    cases found : g.level? n with
    | none => exact ⟨[], (List.append_nil _).symm, .still (loads?_eq_none rfl found) rfl rfl⟩
    | some l =>
      refine ⟨_, g.events_load n l, .load (loads?_eq_some.2 ⟨rfl, l, found⟩) found rfl ?_⟩
      exact g.random_load n l
  | next => exact draws_goToNextLevel rfl rfl starts_nil
  | reset => exact draws_resetLevel rfl rfl starts_nil
  | attempt d =>
    rw [act]
    cases started : g.attemptMove d with
    | none => exact ⟨[], (List.append_nil _).symm, .still rfl rfl rfl⟩
    | some g' =>
      obtain ⟨_, rfl⟩ := attemptMove_eq_some.1 started
      refine ⟨_, events_startMove g d, .of_setting rfl (.of_eq (setting_startMove g d)) ?_⟩
      exact starts_of_play (Plays.startMove g d).told

end Game

/-! ## Runs -/

section
variable {levels : List Level} {rules : Rules} {seed : UInt64} {g₀ : Game} {r : Run}

theorem Run.Reachable.draws (new : Game.new levels rules seed = .ok g₀)
    (h : Run.Reachable g₀ r) (a : Action) :
    r.game.Draws a (r.told a) (r.act a).game := by
  rw [Run.game_act]
  by_cases ticks : ∃ input, a = .tick input
  · obtain ⟨input, rfl⟩ := ticks
    exact Game.draws_tick (h.keyed new)
  · have other : ∀ input, a ≠ .tick input := fun input same => ticks ⟨input, same⟩
    obtain ⟨es, added, draws⟩ := Game.draws_act (g := r.game) other
    rwa [Run.told_eq other, added, List.drop_left]

/-- What is told of starts, and how far the generator is, follows from what is loaded. -/
theorem Run.Reachable.tosses (new : Game.new levels rules seed = .ok g₀)
    (h : Run.Reachable g₀ r) (as : List Action) :
    let r' := as.foldl Run.act r
    let numbers := r.game.loaded as
    starts r'.events = starts r.events ++ tosses levels rules.altPatchChance r.game.random numbers ∧
    r'.game.random =
      (fun x => x.nextWord.2)^[2 * numbers.countP (isPatched levels)] r.game.random := by
  induction as generalizing r with
  | nil => exact ⟨(List.append_nil _).symm, rfl⟩
  | cons a as ih =>
    obtain ⟨told, random⟩ := ih (.next a h)
    dsimp only
    rw [List.foldl_cons, told, random, Run.events_act, starts_append, Game.loaded, ← Run.game_act]
    cases h.draws new a with
    | still none quiet same => simp [none, quiet, same]
    | @load n l loads found started drawn =>
      have coin := Game.flipCoin_eq (h.loaded new).levels_eq found
      rw [h.rules_eq new] at coin
      rw [loads, started, drawn, coin]
      constructor
      · simp [IceMaze.tosses]
      · rw [toss_random, ← Function.iterate_add_apply, Option.toList_some, List.singleton_append,
          List.countP_cons, ← Nat.mul_add]

/-- A new game has its generator from the seed, and has told of nothing. -/
theorem Game.random_of_new (new : Game.new levels rules seed = .ok g₀) :
    g₀.random = .ofSeed seed := by
  unfold Game.new at new
  split at new <;> cases new
  rfl

/-- Two random words are taken for each load of a level with patches, and none for anything else.
So runs that load the same levels get them with the same patches, however they are played. -/
theorem patches_by_loads {rules' : Rules} {g₀' : Game}
    (new : Game.new levels rules seed = .ok g₀) (new' : Game.new levels rules' seed = .ok g₀')
    (chance : rules'.altPatchChance = rules.altPatchChance) (as as' : List Action) :
    let r := as.foldl Run.act (.start g₀)
    let r' := as'.foldl Run.act (.start g₀')
    (starts r.events).map Prod.fst = g₀.loaded as ∧
    r.game.random =
      (fun x => x.nextWord.2)^[2 * (g₀.loaded as).countP (isPatched levels)] (.ofSeed seed) ∧
    (g₀.loaded as = g₀'.loaded as' →
      (starts r.events).map Prod.snd = (starts r'.events).map Prod.snd) := by
  intro r r'
  obtain ⟨told, random⟩ := Run.Reachable.start.tosses new as
  obtain ⟨told', _⟩ := Run.Reachable.start.tosses new' as'
  have told : starts r.events = tosses levels rules.altPatchChance (.ofSeed seed) (g₀.loaded as) :=
    told.trans (by rw [Run.start, Game.random_of_new new]; rfl)
  have told' :
      starts r'.events = tosses levels rules'.altPatchChance (.ofSeed seed) (g₀'.loaded as') :=
    told'.trans (by rw [Run.start, Game.random_of_new new']; rfl)
  refine ⟨?_, ?_, fun same => ?_⟩
  · rw [told, tosses_numbers]
  · rw [← Game.random_of_new new]
    exact random
  · rw [told, told', same, chance]

end

/-- A row of ice, half of which is water in the other layout. -/
def thaw : Level where
  origin := .zero
  spawn := .zero
  tiles := .filled 4 1 .ice
  keys := []
  blocks := []
  bag := none
  patches := [⟨⟨2, 0⟩, .filled 2 1 .water⟩]

/-- The puffle walks to the second level, or the first is given up and passed over. The coin for
the second level is the same, and it has taken two words. -/
theorem patches_by_loads_at_thaw :
    ∃ g₀ g₀', Game.new [doorstep, thaw] { Rules.standard with puffleMoveTicks := 1 } 7 = .ok g₀ ∧
      Game.new [doorstep, thaw] .standard 7 = .ok g₀' ∧
      let r := [.start 1, .tick (.hold .right)].foldl Run.act (.start g₀)
      let r' := [.start 3, .start 1, .attempt .right, .reset, .next].foldl Run.act (.start g₀')
      (starts r.events).map Prod.fst = [1, 2] ∧
      Random.ofSeed 7 = ⟨14886976994342444554, 2172230297942992439⟩ ∧
      r.game.random = (fun x => x.nextWord.2)^[2] (.ofSeed 7) ∧
      r.game.random = ⟨7495264812587007996, 2172230297942992439⟩ ∧
      (starts r.events).map Prod.snd = (starts r'.events).map Prod.snd := by
  let as : List Action := [.start 1, .tick (.hold .right)]
  let as' : List Action := [.start 3, .start 1, .attempt .right, .reset, .next]
  obtain ⟨g₀, new⟩ : ∃ g₀,
      Game.new [doorstep, thaw] { Rules.standard with puffleMoveTicks := 1 } 7 = .ok g₀ := ⟨_, rfl⟩
  obtain ⟨g₀', new'⟩ : ∃ g₀', Game.new [doorstep, thaw] .standard 7 = .ok g₀' := ⟨_, rfl⟩
  have walked : g₀.loaded as = [1, 2] := by
    cases new
    decide +kernel
  have passed : g₀'.loaded as' = [1, 2] := by
    cases new'
    decide +kernel
  obtain ⟨numbers, random, same⟩ := patches_by_loads new new' rfl as as'
  have words : 2 * (g₀.loaded as).countP (isPatched [doorstep, thaw]) = 2 := by
    rw [walked]
    decide
  have taken : (fun x => x.nextWord.2)^[2] (Random.ofSeed 7) =
      ⟨7495264812587007996, 2172230297942992439⟩ := by decide +kernel
  rw [walked] at numbers
  rw [words] at random
  exact ⟨g₀, g₀', new, new', numbers, by decide +kernel, random, random.trans taken,
    same (walked.trans passed.symm)⟩

end IceMaze
