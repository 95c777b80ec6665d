/-!
Cutting a text at a character, and into lines.

`cut?_eq_some` says what the two halves of a cut are; `joinWith_splitAt` says that the pieces of a
split, put back together, are the text.
-/

namespace IceMaze.Text

/-- What stands before and after the first `c`. -/
def cut? (c : Char) : List Char → Option (List Char × List Char)
  | [] => none
  | d :: s => if d = c then some ([], s) else (cut? c s).map fun p => (d :: p.1, p.2)

theorem cut?_eq_some {c : Char} {s a b : List Char} :
    cut? c s = some (a, b) ↔ s = a ++ c :: b ∧ c ∉ a := by
  induction s generalizing a with
  | nil => simp [cut?]
  | cons d s ih =>
    by_cases h : d = c
    · subst h
      cases a <;> simp_all [cut?, eq_comm]
    · cases a with
      | nil => simp [cut?, h]
      | cons e a => simp [cut?, h, ih, Option.map_eq_some_iff, Prod.exists]; grind

theorem length_cut?_lt {c : Char} {s a b : List Char} (h : cut? c s = some (a, b)) :
    b.length < s.length := by
  rw [(cut?_eq_some.1 h).1]
  simp only [List.length_append, List.length_cons]
  omega

/-- The text before the first `c`, or all of it if there is none. -/
def before (c : Char) (s : List Char) : List Char :=
  ((cut? c s).map Prod.fst).getD s

/-- The text after the first `c`, or nothing if there is none. -/
def after (c : Char) (s : List Char) : List Char :=
  ((cut? c s).map Prod.snd).getD []

theorem length_after_le (c : Char) (s : List Char) : (after c s).length ≤ s.length := by
  unfold after
  cases h : cut? c s with
  | none => simp
  | some p => exact Nat.le_of_lt (length_cut?_lt h)

theorem length_after_lt (c d : Char) (s : List Char) : (after c (d :: s)).length < (d :: s).length := by
  unfold after
  cases h : cut? c (d :: s) with
  | none => simp
  | some p => exact length_cut?_lt h

/-- The pieces between the occurrences of `c`; never an empty list. -/
def splitAt (c : Char) : List Char → List (List Char)
  | [] => [[]]
  | d :: s =>
    if d = c then [] :: splitAt c s
    else match splitAt c s with
      | [] => [[d]]
      | p :: ps => (d :: p) :: ps

/-- The pieces of a list between the elements that satisfy `p`. -/
def splitWhere {α : Type} (p : α → Bool) : List α → List (List α)
  | [] => [[]]
  | a :: as =>
    if p a then [] :: splitWhere p as
    else match splitWhere p as with
      | [] => [[a]]
      | q :: qs => (a :: q) :: qs

def dropReturn (s : List Char) : List Char :=
  if s.getLast? = some '\r' then s.dropLast else s

/-- Lines end at a newline, and a carriage return directly before it belongs to the line's end.
Text after the last newline is a line unless it is empty. -/
def lines (s : List Char) : List (List Char) :=
  let pieces := splitAt '\n' s
  pieces.dropLast.map dropReturn ++ pieces.getLast?.toList.filter (· ≠ [])

def joinWith (c : Char) : List (List Char) → List Char
  | [] => []
  | [s] => s
  | s :: t :: rest => s ++ c :: joinWith c (t :: rest)

theorem splitAt_ne_nil (c : Char) (s : List Char) : splitAt c s ≠ [] := by
  cases s with
  | nil => simp [splitAt]
  | cons d s => simp only [splitAt]; split <;> (try split) <;> simp

theorem joinWith_splitAt (c : Char) (s : List Char) : joinWith c (splitAt c s) = s := by
  induction s with
  | nil => rfl
  | cons d s ih =>
    match h : splitAt c s with
    | [] => exact absurd h (splitAt_ne_nil c s)
    | p :: ps =>
      rw [h] at ih
      by_cases hd : d = c
      · simp [splitAt, hd, h, joinWith, ih]
      · cases ps <;> simp_all [splitAt, joinWith]

end IceMaze.Text
