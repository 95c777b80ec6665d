import IceMaze.Number.Numeral

/-!
The tokens of a JSON text.

A string whose escapes name half of a surrogate pair is a token without a text.
-/

namespace IceMaze

open Text

/-- A part of a string literal: a character, or a 16-bit unit given by its number. -/
inductive StringPart where
  | char (c : Char)
  | unit (n : Nat)
  deriving DecidableEq

namespace StringPart

def hexValue? (c : Char) : Option Nat :=
  if '0' ≤ c ∧ c ≤ '9' then some (c.toNat - '0'.toNat)
  else if 'a' ≤ c ∧ c ≤ 'f' then some (c.toNat - 'a'.toNat + 10)
  else if 'A' ≤ c ∧ c ≤ 'F' then some (c.toNat - 'A'.toNat + 10)
  else none

/-- The number of four hexadecimal digits. -/
def fourHex? (a b c d : Char) : Option Nat := do
  let a ← hexValue? a
  let b ← hexValue? b
  let c ← hexValue? c
  let d ← hexValue? d
  return ((a * 16 + b) * 16 + c) * 16 + d

def escaped? : Char → Option Char
  | '"' => some '"'
  | '\\' => some '\\'
  | '/' => some '/'
  | 'b' => some '\x08'
  | 'f' => some '\x0c'
  | 'n' => some '\n'
  | 'r' => some '\r'
  | 't' => some '\t'
  | _ => none

/-- Read up to the closing quote; control characters must be escaped. -/
def scan? : List Char → Option (List StringPart × List Char)
  | [] => none
  | '"' :: s => some ([], s)
  | '\\' :: 'u' :: a :: b :: c :: d :: s =>
    match fourHex? a b c d with
    | some n => (scan? s).map fun p => (.unit n :: p.1, p.2)
    | none => none
  | '\\' :: e :: s =>
    match escaped? e with
    | some c => (scan? s).map fun p => (.char c :: p.1, p.2)
    | none => none
  | c :: s => if c.toNat < 0x20 ∨ c = '\\' then none else (scan? s).map fun p => (.char c :: p.1, p.2)

theorem length_scan?_le {s t : List Char} {ps : List StringPart} (h : scan? s = some (ps, t)) :
    t.length ≤ s.length := by
  fun_induction scan? s generalizing ps <;> grind [Option.map_eq_some_iff]

def IsHigh (n : Nat) : Prop := 0xD800 ≤ n ∧ n < 0xDC00

def IsLow (n : Nat) : Prop := 0xDC00 ≤ n ∧ n < 0xE000

instance (n : Nat) : Decidable (IsHigh n) := inferInstanceAs (Decidable (_ ∧ _))

instance (n : Nat) : Decidable (IsLow n) := inferInstanceAs (Decidable (_ ∧ _))

/-- The text of a string; a high unit must be followed by a low one, and a low one must follow. -/
def decode? : List StringPart → Option (List Char)
  | [] => some []
  | .char c :: ps => (decode? ps).map (c :: ·)
  | .unit h :: .unit l :: ps =>
    if IsHigh h then
      if IsLow l then
        (decode? ps).map (Char.ofNat (0x10000 + (h - 0xD800) * 0x400 + (l - 0xDC00)) :: ·)
      else none
    else if IsLow h then none
    else (decode? (.unit l :: ps)).map (Char.ofNat h :: ·)
  | .unit h :: ps =>
    if IsHigh h ∨ IsLow h then none else (decode? ps).map (Char.ofNat h :: ·)

end StringPart

namespace Json

inductive Token where
  | braceOpen | braceClose | bracketOpen | bracketClose | colon | comma
  | null
  | bool (b : Bool)
  | num (n : Numeral)
  | str (text : Option String)
  deriving DecidableEq

def isSpace (c : Char) : Bool := c = ' ' || c = '\t' || c = '\n' || c = '\r'

/-- A number at the start of a text. -/
def scanNumber? (s : List Char) : Option (Token × List Char) :=
  (Numeral.scan? s).map fun p => (.num p.1, p.2)

/-- The token at the start of a text, and what follows it. -/
def Token.scan? : List Char → Option (Token × List Char)
  | '\x7b' :: s => some (.braceOpen, s)
  | '\x7d' :: s => some (.braceClose, s)
  | '[' :: s => some (.bracketOpen, s)
  | ']' :: s => some (.bracketClose, s)
  | ':' :: s => some (.colon, s)
  | ',' :: s => some (.comma, s)
  | '"' :: s =>
    (StringPart.scan? s).map fun p => (.str ((StringPart.decode? p.1).map String.ofList), p.2)
  | 'n' :: 'u' :: 'l' :: 'l' :: s => some (.null, s)
  | 't' :: 'r' :: 'u' :: 'e' :: s => some (.bool true, s)
  | 'f' :: 'a' :: 'l' :: 's' :: 'e' :: s => some (.bool false, s)
  | s => scanNumber? s

theorem Token.length_scan?_lt {s t : List Char} {k : Token} (h : Token.scan? s = some (k, t)) :
    t.length < s.length := by
  unfold Token.scan? at h
  split at h
  case h_7 =>
    simp only [Option.map_eq_some_iff, Prod.mk.injEq] at h
    obtain ⟨p, hp, _, rfl⟩ := h
    exact Nat.lt_succ_of_le (StringPart.length_scan?_le hp)
  case h_11 =>
    simp only [scanNumber?, Option.map_eq_some_iff, Prod.mk.injEq] at h
    obtain ⟨p, hp, _, rfl⟩ := h
    exact Numeral.length_scan?_lt hp
  all_goals
    cases h
    simp only [List.length_cons]
    omega

/-- The tokens of a text, white space left out. -/
def tokens? (s : List Char) : Option (List Token) :=
  match _h : s.dropWhile isSpace with
  | [] => some []
  | c :: rest =>
    match _ht : Token.scan? (c :: rest) with
    | none => none
    | some (t, more) => (tokens? more).map (t :: ·)
termination_by s.length
decreasing_by
  have h₁ := Token.length_scan?_lt _ht
  have h₂ := (List.dropWhile_sublist isSpace (l := s)).length_le
  rw [_h] at h₂
  omega

end Json
end IceMaze
