import IceMaze.Number.Layout
import IceMaze.Proofs.Json.Tokens

/-!
Laid out decimals are numerals that can be read.

A decimal has a digit other than zero in front, unless it is zero itself. So no layout gives a
numeral leading zeros: `Layout.proper_numeral` for every decimal, `Layout.proper_ofFloat` for every
floating-point number.
-/

namespace IceMaze

open Text Numeral

/-- Digits of a whole number that is not zero. -/
structure Leading (ds : List Char) : Prop where
  digits : ds.all isDigit = true
  ne_nil : ds ≠ []
  first : ds.head? ≠ some '0'

namespace Leading

variable {ds : List Char}

theorem isWhole (h : Leading ds) : IsWhole ds := ⟨h.ne_nil, fun zero => absurd zero h.first⟩

theorem append (h : Leading ds) {s : List Char} (digits : s.all isDigit = true) :
    Leading (ds ++ s) where
  digits := by rw [List.all_append, h.digits, digits, Bool.and_self]
  ne_nil := List.append_ne_nil_of_left_ne_nil h.ne_nil s
  first := by
    obtain ⟨c, rest, rfl⟩ := List.exists_cons_of_ne_nil h.ne_nil
    exact h.first

theorem take (h : Leading ds) {n : Nat} (pos : 0 < n) : Leading (ds.take n) where
  digits := List.all_eq_true.2 fun c hc => List.all_eq_true.1 h.digits c (List.mem_of_mem_take hc)
  ne_nil := by simp [List.take_eq_nil_iff, h.ne_nil, pos.ne']
  first := by rw [List.head?_take, if_neg pos.ne']; exact h.first

theorem all_drop (h : Leading ds) (n : Nat) : (ds.drop n).all isDigit = true :=
  List.all_eq_true.2 fun c hc => List.all_eq_true.1 h.digits c (List.mem_of_mem_drop hc)

end Leading

theorem leading_digits {n : Nat} (pos : n ≠ 0) : Leading (digits n) where
  digits := all_isDigit_digits n
  ne_nil := digits_ne_nil n
  first := fun zero => pos (eq_zero_of_head?_digits zero)

namespace Layout

variable (l : Layout) (negative : Bool) {ds : List Char}

theorem all_zeros (n : Nat) : (zeros n).all isDigit = true :=
  List.all_eq_true.2 fun c hc => by rw [List.eq_of_mem_replicate hc]; rfl

theorem proper_zero : (l.inFull negative ['0'] 0).Proper where
  whole := by simp [inFull, zeros, IsWhole, isDigit]
  fraction := by
    unfold inFull
    rw [if_pos (Int.le_refl 0)]
    dsimp only
    split <;> rfl
  exponent := nofun

theorem proper_inFull (h : Leading ds) (e : Int) : (l.inFull negative ds e).Proper := by
  unfold inFull
  split
  · -- a whole number
    have whole := h.append (all_zeros e.toNat)
    refine ⟨⟨whole.isWhole, whole.digits⟩, ?_, nofun⟩
    dsimp only
    split <;> rfl
  · dsimp only
    split
    · -- the point is among the digits
      have whole := h.take (Nat.sub_pos_of_lt ‹(-e).toNat < ds.length›)
      exact ⟨⟨whole.isWhole, whole.digits⟩, h.all_drop _, nofun⟩
    · -- the point is in front of all digits
      refine ⟨⟨⟨List.cons_ne_nil _ _, fun _ => rfl⟩, rfl⟩, ?_, nofun⟩
      dsimp only
      rw [List.all_append, all_zeros, h.digits, Bool.and_self]

theorem proper_withExponent (h : Leading ds) (top : Int) :
    (withExponent negative ds top).Proper := by
  have whole := h.take Nat.one_pos
  refine ⟨⟨whole.isWhole, whole.digits⟩, h.all_drop 1, ?_⟩
  rintro e ⟨⟩
  exact ⟨digits_ne_nil _, all_isDigit_digits _⟩

theorem proper_numeral (d : Decimal) : (l.numeral d).Proper := by
  unfold numeral
  split
  · exact l.proper_zero d.negative
  · have leading := leading_digits ‹¬d.significand = 0›
    dsimp only
    split
    · exact l.proper_inFull d.negative leading _
    · split
      · exact l.proper_inFull d.negative leading _
      · exact proper_withExponent d.negative leading _

theorem proper_ofFloat (x : Float) : (l.ofFloat x).Proper := l.proper_numeral _

end Layout
end IceMaze
