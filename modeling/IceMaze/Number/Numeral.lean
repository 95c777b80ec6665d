import IceMaze.Text.Numeric

/-!
Decimal numerals: how they are written, and the integer or floating-point number they stand for.

An integer is a numeral without fraction and exponent that fits 64 bits; minus zero is none. A
floating-point number is made from the digits that fit 64 bits by one multiplication or division
by a power of ten, so its last bit may differ from that of the nearest one.
-/

namespace IceMaze

open Text

structure Numeral where
  negative : Bool
  whole : List Char
  /-- The digits after the point; without any, there is no point. -/
  fraction : List Char
  /-- Whether the exponent is negative, and its digits. -/
  exponent : Option (Bool × List Char)
  deriving DecidableEq

namespace Numeral

def ofInt (n : Int) : Numeral := ⟨n < 0, digits n.natAbs, [], none⟩

/-- An exponent is written with its sign, whichever it is. -/
def write (n : Numeral) : List Char :=
  (if n.negative then ['-'] else []) ++ n.whole ++
  (if n.fraction = [] then [] else '.' :: n.fraction) ++
  match n.exponent with
  | none => []
  | some (negative, ds) => 'e' :: (if negative then '-' else '+') :: ds

/-! ## Reading -/

/-- One zero, or digits that start with none. -/
def IsWhole (ds : List Char) : Prop := ds ≠ [] ∧ (ds.head? = some '0' → ds = ['0'])

instance (ds : List Char) : Decidable (IsWhole ds) := inferInstanceAs (Decidable (_ ∧ _))

/-- The sign in front, if it is a minus, and the rest. -/
def takeMinus : List Char → Bool × List Char
  | '-' :: s => (true, s)
  | s => (false, s)

def takeFraction? : List Char → Option (List Char × List Char)
  | '.' :: s =>
    let ds := s.takeWhile isDigit
    if ds = [] then none else some (ds, s.dropWhile isDigit)
  | s => some ([], s)

def takePower? (negative : Bool) (s : List Char) : Option (Option (Bool × List Char) × List Char) :=
  let ds := s.takeWhile isDigit
  if ds = [] then none else some (some (negative, ds), s.dropWhile isDigit)

def takeExponent? (s : List Char) : Option (Option (Bool × List Char) × List Char) :=
  match s with
  | [] => some (none, [])
  | c :: rest =>
    if c = 'e' ∨ c = 'E' then
      match rest with
      | '-' :: t => takePower? true t
      | '+' :: t => takePower? false t
      | t => takePower? false t
    else some (none, s)

/-- The numeral at the start of a text, and what follows it. -/
def scan? (s : List Char) : Option (Numeral × List Char) :=
  let signed := takeMinus s
  let whole := signed.2.takeWhile isDigit
  if IsWhole whole then do
    let (fraction, s) ← takeFraction? (signed.2.dropWhile isDigit)
    let (exponent, s) ← takeExponent? s
    return (⟨signed.1, whole, fraction, exponent⟩, s)
  else none

theorem length_dropWhile_le (p : Char → Bool) (s : List Char) :
    (s.dropWhile p).length ≤ s.length :=
  (List.dropWhile_sublist p).length_le

theorem length_takeMinus_le (s : List Char) : (takeMinus s).2.length ≤ s.length := by
  unfold takeMinus
  split <;> simp

theorem length_takeFraction?_le {s t ds : List Char} (h : takeFraction? s = some (ds, t)) :
    t.length ≤ s.length := by
  unfold takeFraction? at h
  dsimp only at h
  split at h
  · split at h
    · cases h
    · cases h
      exact Nat.le_succ_of_le (length_dropWhile_le _ _)
  · cases h
    exact Nat.le_refl _

theorem length_takePower?_le {b : Bool} {s t : List Char} {e : Option (Bool × List Char)}
    (h : takePower? b s = some (e, t)) : t.length ≤ s.length := by
  unfold takePower? at h
  dsimp only at h
  split at h
  · cases h
  · cases h
    exact length_dropWhile_le _ _

theorem length_takeExponent?_le {s t : List Char} {e : Option (Bool × List Char)}
    (h : takeExponent? s = some (e, t)) : t.length ≤ s.length := by
  unfold takeExponent? at h
  split at h
  · cases h
    exact Nat.le_refl _
  · split at h
    · split at h <;> have := length_takePower?_le h <;> grind
    · cases h
      exact Nat.le_refl _

theorem length_scan?_lt {s t : List Char} {n : Numeral} (h : scan? s = some (n, t)) :
    t.length < s.length := by
  unfold scan? at h
  dsimp only at h
  split at h
  · rename_i hw
    simp only [Option.bind_eq_bind, Option.bind_eq_some_iff, Prod.exists] at h
    obtain ⟨ds, t₁, hf, e, t₂, he, h⟩ := h
    cases h
    have h₁ := length_takeFraction?_le hf
    have h₂ := length_takeExponent?_le he
    have h₃ := length_takeMinus_le s
    have h₄ := congrArg List.length
      (List.takeWhile_append_dropWhile (p := isDigit) (l := (takeMinus s).2))
    have h₅ := List.length_pos_iff.2 hw.1
    rw [List.length_append] at h₄
    omega
  · cases h

/-! ## Numbers -/

def toInt? (n : Numeral) : Option Int :=
  if n.fraction = [] ∧ n.exponent = none then
    let m := value n.whole
    if n.negative then
      if m ≠ 0 ∧ m ≤ UInt64.size / 2 then some (-(m : Int)) else none
    else if m < UInt64.size then some m else none
  else none

/-- Append digits to a number while it fits 64 bits; the digits left over come second. -/
def absorb (n : Nat) : List Char → Nat × List Char
  | [] => (n, [])
  | d :: ds =>
    if 10 * n + digitValue d < UInt64.size then absorb (10 * n + digitValue d) ds else (n, d :: ds)

/-- The digits that fit 64 bits, and the power of ten of the last of them. -/
def significand (n : Numeral) : Nat × Int :=
  let whole := absorb 0 n.whole
  let all := absorb whole.1 n.fraction
  (all.1, (whole.2.length : Int) - (n.fraction.length - all.2.length : Int))

def powerOfTen (n : Nat) : Float := Float.ofScientific 1 false n

/-- `x` times ten to the power `e`. Too large a result is refused, one too small is zero. -/
def scale? (x : Float) (e : Int) : Option Float :=
  if 0 ≤ e then
    if e ≤ 308 then
      let y := x * powerOfTen e.toNat
      if y.isInf then none else some y
    else if x == 0 then some x
    else none
  else if -308 ≤ e then some (x / powerOfTen (-e).toNat)
  else if x == 0 then some x
  else scale? (x / powerOfTen 308) (e + 308)
termination_by (-e).toNat
decreasing_by omega

/-- The size of the number, without its sign. An exponent beyond 31 bits leaves nothing of it. -/
def magnitude? (n : Numeral) : Option Float :=
  let (m, e) := n.significand
  match n.exponent with
  | none => scale? m.toUInt64.toFloat e
  | some (negative, ds) =>
    let p := value ds
    if p < UInt32.size / 2 then scale? m.toUInt64.toFloat (if negative then e - p else e + p)
    else if m = 0 ∨ negative then some 0
    else none

def toFloat? (n : Numeral) : Option Float :=
  n.magnitude?.map fun x => if n.negative then -x else x

end Numeral
end IceMaze
