import IceMaze.Proofs.Play.Course

/-!
What the completion of a level tells, and what it pays.

A cleared level pays its total three times, or twice if it has been failed; a level that is not
cleared pays its melts only, and the coin bag comes on top (`payout`). The books that show it are
kept by play (`Accounts.plays`), so they are right at the end of a tick as well as in the middle of
one, where the puffle reaches a goal. `completion_payout` has both.
-/

namespace IceMaze

section
variable {log es : List Event}

theorem failuresSinceStart_concat (log : List Event) (e : Event) :
    failuresSinceStart (log ++ [e]) =
      match e.milestone? with
      | none => failuresSinceStart log
      | some m =>
        if m.isStart then 0 else failuresSinceStart log + if m.isFailure then 1 else 0 := by
  rw [failuresSinceStart, milestones_append]
  cases told : e.milestone? with
  | none => simp [milestones, told, failuresSinceStart]
  | some m =>
    have added : milestones [e] = [m] := by simp [milestones, told]
    rw [added, List.rtakeWhile_concat]
    cases starts : m.isStart with
    | true => simp [starts]
    | false => simp [starts, failuresSinceStart, List.countP_append, List.countP_cons]

theorem failuresSinceStart_of_play (log : List Event) (play : ∀ e ∈ es, e.isOfPlay = true) :
    failuresSinceStart (log ++ es) = failuresSinceStart log := by
  rw [failuresSinceStart, milestones_append, milestones_of_play play, List.append_nil,
    failuresSinceStart]

end

/-- What a level of this total pays at the end of these events. -/
def payout (rules : Rules) (total : Nat) (solved : Bool) (log : List Event) : Nat :=
  (if solved then (if failuresSinceStart log = 0 then 3 else 2) * total
    else (Event.sinceOpening log).countP Event.isMelt) +
  if (Event.sinceOpening log).any Event.isBag then rules.coinBagBonus else 0

namespace Game

variable {g g' : Game}

theorem events_goToNextLevel (g : Game) :
    ∃ next : Event, next.completion? = none ∧ g.goToNextLevel.events =
      g.events ++ [.levelCompleted g.levelNumber (g.melted = g.total) (g.pointsInLevel + g.bonus),
        next] := by
  obtain ⟨l, _, loaded⟩ | ⟨_, ended⟩ := g.goToNextLevel_cases
  · refine ⟨.levelStarted (g.levelNumber + 1) (g.complete.flipCoin l).1, rfl, ?_⟩
    rw [loaded, events_load, events_complete, List.append_assoc]
    rfl
  · refine ⟨.allLevelsComplete g.complete.score, rfl, ?_⟩
    rw [ended, events_finish, events_complete, List.append_assoc]
    rfl

theorem Turn.failures {levels : List Level} {past : List Event} (turn : Turn g g')
    (loaded : g.setting.Loaded levels)
    (h : g.timesFailed = UInt32.ofNat (failuresSinceStart (past ++ g.events))) :
    g'.timesFailed = UInt32.ofNat (failuresSinceStart (past ++ g'.events)) := by
  have reset (f : Game) (setting : f.setting = g.setting) (playing : g.phase = .playing)
      (same : failuresSinceStart (past ++ f.events) = failuresSinceStart (past ++ g.events)) :
      f.resetLevel.timesFailed =
        UInt32.ofNat (failuresSinceStart (past ++ f.resetLevel.events)) := by
    obtain ⟨l, layout⟩ := loaded.exists_layout playing
    have playing' : f.phase = .playing := (phase_of_setting setting).trans playing
    have layout' : f.layout = some l := (layout_of_setting setting).trans layout
    have failed : f.timesFailed = g.timesFailed := timesFailed_of_setting setting
    have more : f.resetLevel.timesFailed = f.timesFailed + 1 :=
      congrArg Setting.timesFailed (f.setting_resetLevel_of_playing playing' layout')
    rw [more, events_resetLevel_of_playing f playing' layout', ← List.append_assoc,
      failuresSinceStart_concat, same, failed, h]
    exact (UInt32.ofNat_add _ 1).symm
  have load (f : Game) (n : Nat) (l : Level) :
      (f.load n l).timesFailed =
        UInt32.ofNat (failuresSinceStart (past ++ (f.load n l).events)) := by
    rw [timesFailed_load, events_load, ← List.append_assoc, failuresSinceStart_concat]
    rfl
  cases turn with
  | fail playing =>
    refine reset _ rfl playing ?_
    rw [events_emit, ← List.append_assoc, failuresSinceStart_concat]
    rfl
  | reset playing => exact reset g rfl playing rfl
  | load => exact load g _ _
  | next => exact load _ _ _
  | conclude =>
    rw [events_finish, events_complete, ← List.append_assoc, ← List.append_assoc,
      failuresSinceStart_concat, failuresSinceStart_concat]
    exact h

/-! ## The books of a level -/

/-- A level is in play, and its melts, points, keys and failures are those told in the log, the
failures in 32 bits. -/
structure Accounts (levels : List Level) (log : List Event) (g : Game) : Prop where
  playing : g.phase = .playing
  loaded : g.setting.Loaded levels
  melting : Melting log g
  ledger : Ledger log g
  failures : g.timesFailed = UInt32.ofNat (failuresSinceStart log)

namespace Accounts

variable {levels : List Level} {log es : List Event}

theorem plays (h : Accounts levels log g) (plays : Plays g es g') :
    Accounts levels (log ++ es) g' where
  playing := (phase_of_setting plays.setting).trans h.playing
  loaded := plays.setting ▸ h.loaded
  melting := by
    refine plays.keeps (P := Melting) (fun log es g g' op melting => ?_) log h.melting
    exact melting.conserves op.conserves (layout_of_setting op.setting)
  ledger := plays.keeps (P := Ledger) (fun _ _ _ _ op ledger => ledger.operation op) log h.ledger
  failures := by
    have same : g'.timesFailed = g.timesFailed := timesFailed_of_setting plays.setting
    rw [same, failuresSinceStart_of_play log plays.told, h.failures]

theorem first_try_iff (h : Accounts levels log g)
    (counted : failuresSinceStart log < UInt32.size) :
    g.timesFailed = 0 ↔ failuresSinceStart log = 0 := by
  rw [h.failures, ← UInt32.toNat_inj, UInt32.toNat_ofNat_of_lt' counted]
  rfl

/-- Only a cleared level is paid by the failures, so only there they have to be counted to the
end. -/
theorem points (h : Accounts levels log g)
    (counted : g.melted = g.total → failuresSinceStart log < UInt32.size) :
    g.pointsInLevel + g.bonus = payout g.rules g.total (g.melted = g.total) log := by
  have melted := h.melting.melted
  have bag : g.rules.coinBagBonus * (Event.sinceOpening log).countP Event.isBag =
      if (Event.sinceOpening log).any Event.isBag then g.rules.coinBagBonus else 0 := by
    have once := h.ledger.countP_isBag
    cases taken : (Event.sinceOpening log).any Event.isBag with
    | true =>
      have some_taken := List.countP_pos_iff.2 (List.any_eq_true.1 taken)
      have exactly : (Event.sinceOpening log).countP Event.isBag = 1 := by
        split at once <;> omega
      rw [exactly, Nat.mul_one, if_pos rfl]
    | false =>
      have none_taken : (Event.sinceOpening log).countP Event.isBag = 0 := by
        rw [List.countP_eq_zero]
        exact fun e told => Bool.not_eq_true _ ▸ List.any_eq_false.1 taken e told
      rw [none_taken, Nat.mul_zero]
      rfl
  rw [h.ledger.points, bag, payout, bonus, ← melted]
  by_cases solved : g.melted = g.total
  · have same := h.first_try_iff (counted solved)
    by_cases first : failuresSinceStart log = 0 <;>
      simp only [solved, same, first, decide_true, if_true, if_false] <;> omega
  · simp only [solved, decide_false, if_false, Bool.false_eq_true]
    omega

end Accounts
end Game

/-! ## Runs -/

section
variable {levels : List Level} {rules : Rules} {seed : UInt64} {g₀ : Game} {r : Run}

theorem Run.Reachable.failures (new : Game.new levels rules seed = .ok g₀)
    (h : Run.Reachable g₀ r) :
    r.game.timesFailed = UInt32.ofNat (failuresSinceStart r.events) := by
  apply h.by_turns (P := fun log g => g.timesFailed = UInt32.ofNat (failuresSinceStart log)) new
  · unfold Game.new at new
    split at new <;> cases new
    rfl
  · exact fun _ _ => id
  · intro log es g g' op failures
    have same : g'.timesFailed = g.timesFailed := Game.timesFailed_of_setting op.setting
    rw [same, failuresSinceStart_of_play log op.told, failures]
  · exact fun past g g' turn loaded failures => turn.failures loaded failures

end

end IceMaze
