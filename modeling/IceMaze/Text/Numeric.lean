/-!
Whole numbers in decimal.

`value_digits` says that a written number reads back.
-/

namespace IceMaze.Text

def isDigit (c : Char) : Bool := '0' ≤ c && c ≤ '9'

def digitValue (c : Char) : Nat := c.toNat - '0'.toNat

/-- The number that a row of digits spells. -/
def value (ds : List Char) : Nat := ds.foldl (fun n c => 10 * n + digitValue c) 0

def digit (n : Nat) : Char := Char.ofNat ('0'.toNat + n)

/-- The decimal digits of a number, without leading zeros. -/
def digits (n : Nat) : List Char :=
  if n < 10 then [digit n] else digits (n / 10) ++ [digit (n % 10)]

theorem digitValue_digit : ∀ n < 10, digitValue (digit n) = n := by decide

theorem isDigit_digit : ∀ n < 10, isDigit (digit n) = true := by decide

theorem value_digits (n : Nat) : value (digits n) = n := by
  induction n using digits.induct with
  | case1 n h => simp [digits, h, value, digitValue_digit n h]
  | case2 n h ih =>
    rw [digits, if_neg h, value, List.foldl_append, ← value, ih]
    simp only [List.foldl_cons, List.foldl_nil, digitValue_digit _ (Nat.mod_lt n (by decide))]
    omega

def integer : Int → List Char
  | .ofNat n => digits n
  | .negSucc n => '-' :: digits (n + 1)

/-- A row of digits, at least one. -/
def readNat? (s : List Char) : Option Nat :=
  if s ≠ [] ∧ s.all isDigit then some (value s) else none

/-- A sign, if any, and at least one digit. -/
def readInt? : List Char → Option Int
  | '-' :: s => (readNat? s).map fun n => -(n : Int)
  | '+' :: s => (readNat? s).map Int.ofNat
  | s => (readNat? s).map Int.ofNat

end IceMaze.Text
