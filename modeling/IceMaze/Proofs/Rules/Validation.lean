import IceMaze.Rules.Basic
import Mathlib.Logic.Basic

/-!
Which rules make sense.

Rules are checked in four steps, and the first that fails is reported. `validate_eq_ok` says what
rules are like that pass all of them, as the standard ones do.
-/

namespace IceMaze.Rules

/-- The chance is one, every move takes time, and every direction has its place. -/
structure Sound (r : Rules) : Prop where
  chance : 0 ≤ r.altPatchChance ∧ r.altPatchChance ≤ 1
  puffle : 1 ≤ r.puffleMoveTicks
  block : 1 ≤ r.blockMoveTicks
  listed : ∀ d, d ∈ r.priority.toList

variable {r : Rules}

theorem validate_eq_ok : r.validate = .ok () ↔ r.Sound := by
  have all_listed : (∃ d ∈ Direction.all, d ∉ r.priority.toList) ↔
      ¬∀ d, d ∈ r.priority.toList := by
    simp [Direction.mem_all]
  unfold validate
  constructor
  · intro passed
    split at passed
    · cases passed
    · rename_i chance
      split at passed
      · cases passed
      · split at passed
        · cases passed
        · split at passed
          · cases passed
          · rename_i listed
            rw [all_listed, not_not] at listed
            exact ⟨not_not.1 chance, by omega, by omega, listed⟩
  · rintro ⟨chance, puffle, block, listed⟩
    rw [if_neg (not_not_intro chance), if_neg (by omega), if_neg (by omega), if_neg]
    rw [all_listed, not_not]
    exact listed

theorem validate_standard : standard.validate = .ok () := by
  refine validate_eq_ok.2 ⟨by decide +kernel, by decide, by decide, fun d => ?_⟩
  cases d <;> decide

end IceMaze.Rules
