import IceMaze.Number.Numeral
import IceMaze.Number.Shortest

/-!
Laying out a decimal as a numeral: in full, or with an exponent when it is very large or small.
-/

namespace IceMaze

open Text

structure Layout where
  tie : Tie
  /-- The least and the greatest exponent of the first digit that are written in full, if not all
  are. -/
  full : Option (Int × Int)
  /-- Whole numbers that are written in full end in `.0`. -/
  pointZero : Bool

namespace Layout

/-- Numbers in messages are always written in full, and whole numbers have no point. -/
def message : Layout := ⟨.up, none, false⟩

/-- Numbers in files have a point or an exponent. -/
def file : Layout := ⟨.even, some (-5, 15), true⟩

def zeros (n : Nat) : List Char := List.replicate n '0'

/-- The decimal `ds * 10 ^ e` written in full. -/
def inFull (l : Layout) (negative : Bool) (ds : List Char) (e : Int) : Numeral :=
  if 0 ≤ e then ⟨negative, ds ++ zeros e.toNat, if l.pointZero then ['0'] else [], none⟩
  else
    let places := (-e).toNat
    if places < ds.length then
      ⟨negative, ds.take (ds.length - places), ds.drop (ds.length - places), none⟩
    else ⟨negative, ['0'], zeros (places - ds.length) ++ ds, none⟩

/-- One digit before the point, and `top` as the exponent. -/
def withExponent (negative : Bool) (ds : List Char) (top : Int) : Numeral :=
  ⟨negative, ds.take 1, ds.drop 1, some (top < 0, digits top.natAbs)⟩

def numeral (l : Layout) (d : Decimal) : Numeral :=
  if d.significand = 0 then l.inFull d.negative ['0'] 0
  else
    let ds := digits d.significand
    let top := d.exponent + ds.length - 1
    match l.full with
    | none => l.inFull d.negative ds d.exponent
    | some (least, greatest) =>
      if least ≤ top ∧ top ≤ greatest then l.inFull d.negative ds d.exponent
      else withExponent d.negative ds top

def ofFloat (l : Layout) (x : Float) : Numeral := l.numeral (Decimal.ofFloat l.tie x)

/-- The text of a number, finite or not. -/
def text (l : Layout) (x : Float) : String :=
  if x.isNaN then "NaN"
  else if x.isInf then if x < 0 then "-inf" else "inf"
  else String.ofList (l.ofFloat x).write

end Layout
end IceMaze
