import IceMaze.Text.Numeric

/-!
The fewest decimal digits that read back as a given floating-point number.

A finite number is `m * 2 ^ q`. The reals nearer to it than to its neighbours form an interval
around it, with its ends if `m` is even. On the grid of numbers with `n` decimal digits only the
two grid points next to the number matter: if one of them lies in the interval, `n` digits are
enough.
-/

namespace IceMaze

/-- The number `digits * 10 ^ exponent`. -/
structure Decimal where
  negative : Bool
  significand : Nat
  exponent : Int
  deriving DecidableEq

/-- Which of two equally near decimals is taken. -/
inductive Tie where
  | up | even
  deriving DecidableEq

namespace Decimal

/-- A positive ratio with an interval around it: numerators over one denominator. -/
structure Neighbourhood where
  low : Nat
  mid : Nat
  high : Nat
  denominator : Nat
  closed : Bool

/-- The leading bit of a significand, which is not stored. -/
def hiddenBit : Nat := 4503599627370496

namespace Neighbourhood

/-- The interval of the number `m * 2 ^ q`: the number below it is nearer if `m` is the least with
its exponent. -/
def ofBinary (m : Nat) (q : Int) (lowestExponent : Bool) : Neighbourhood :=
  let gap := if m = hiddenBit ∧ !lowestExponent then 1 else 2
  let up := Nat.pow 2 (q - 2).toNat
  ⟨(4 * m - gap) * up, 4 * m * up, (4 * m + 2) * up, Nat.pow 2 (2 - q).toNat, m % 2 == 0⟩

/-- Measure in units of `10 ^ e`. -/
def inUnits (b : Neighbourhood) (e : Int) : Neighbourhood :=
  let up := Nat.pow 10 (-e).toNat
  ⟨b.low * up, b.mid * up, b.high * up, b.denominator * Nat.pow 10 e.toNat, b.closed⟩

def Holds (b : Neighbourhood) (n : Nat) : Prop :=
  if b.closed then b.low ≤ n * b.denominator ∧ n * b.denominator ≤ b.high
  else b.low < n * b.denominator ∧ n * b.denominator < b.high

instance (b : Neighbourhood) (n : Nat) : Decidable (b.Holds n) := by
  unfold Holds
  infer_instance

/-- The greatest `e` with `10 ^ e` at most the middle. -/
def exponent (b : Neighbourhood) : Int :=
  let e : Int := (Text.digits b.mid).length - (Text.digits b.denominator).length
  let c := b.inUnits e
  if c.denominator ≤ c.mid then e else e - 1

/-- The whole number nearest to the middle among its two neighbours in the interval. -/
def nearest? (tie : Tie) (b : Neighbourhood) : Option Nat :=
  let n := b.mid / b.denominator
  match decide (b.Holds n), decide (b.Holds (n + 1)) with
  | false, false => none
  | true, false => some n
  | false, true => some (n + 1)
  | true, true =>
    let below := 2 * (b.mid % b.denominator)
    if below < b.denominator then some n
    else if b.denominator < below then some (n + 1)
    else match tie with
      | .up => some (n + 1)
      | .even => some (if n % 2 = 0 then n else n + 1)

/-- The first hit on the grids of `n`, `n + 1`, … digits, and its unit's exponent. -/
def search (tie : Tie) (b : Neighbourhood) (top : Int) : Nat → Nat → Nat × Int
  | _, 0 => (0, 0)
  | n, fuel + 1 =>
    let e := top - n + 1
    match (b.inUnits e).nearest? tie with
    | some d => (d, e)
    | none => search tie b top (n + 1) fuel

end Neighbourhood

/-- Drop zeros at the end of the significand. -/
def normalize (d : Decimal) : Decimal :=
  if _h : d.significand ≠ 0 ∧ d.significand % 10 = 0 then
    normalize { d with significand := d.significand / 10, exponent := d.exponent + 1 }
  else d
termination_by d.significand
decreasing_by omega

/-- The shortest decimal for a finite floating-point number; seventeen digits always suffice. -/
def ofFloat (tie : Tie) (x : Float) : Decimal :=
  let bits := x.toBits.toNat
  let negative := bits >>> 63 == 1
  let field := (bits >>> 52) % 2048
  let rest := bits % hiddenBit
  let m := if field = 0 then rest else hiddenBit + rest
  if m = 0 then ⟨negative, 0, 0⟩
  else
    let q : Int := ((max field 1 : Nat) : Int) - 1075
    let b := Neighbourhood.ofBinary m q (field ≤ 1)
    let (n, e) := b.search tie b.exponent 1 17
    normalize ⟨negative, n, e⟩

end Decimal
end IceMaze
