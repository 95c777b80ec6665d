import IceMaze.Json.Print
import IceMaze.Proofs.Text.Scanning
import Mathlib.Data.List.TakeWhile

/-!
How numerals, strings and punctuation may be written.

An exponent has either letter and needs no plus (`Numeral.WrittenExponent`), and a character may be
written by an escape (`StringPart.Written`). Scanning takes the token from every such text and leaves
what follows it (`Token.Written.scan?`), and from no other text (`Token.written_of_scan?`). A numeral
has no end of its own, so what follows must not go on with it (`Ends`).
-/

namespace IceMaze

open Text

/-! ## Numerals -/

/-- A text that does not go on with a numeral in front of it. -/
def Ends (s : List Char) : Prop :=
  ∀ c ∈ s.head?, isDigit c = false ∧ c ≠ '.' ∧ c ≠ 'e' ∧ c ≠ 'E'

theorem Ends.nil : Ends [] := nofun

theorem Ends.cons {c : Char} (h : isDigit c = false ∧ c ≠ '.' ∧ c ≠ 'e' ∧ c ≠ 'E')
    (s : List Char) : Ends (c :: s) := by
  rintro d ⟨⟩
  exact h

theorem digits_span {ds s : List Char} (digits : ds.all isDigit = true)
    (stop : ∀ c ∈ s.head?, isDigit c = false) :
    (ds ++ s).takeWhile isDigit = ds ∧ (ds ++ s).dropWhile isDigit = s :=
  takeWhile_dropWhile_append (List.all_eq_true.1 digits) stop

namespace Numeral

/-- Digits wherever digits belong, and no leading zeros. -/
structure Proper (n : Numeral) : Prop where
  whole : IsWhole n.whole ∧ n.whole.all isDigit = true
  fraction : n.fraction.all isDigit = true
  exponent : ∀ e ∈ n.exponent, e.2 ≠ [] ∧ e.2.all isDigit = true

theorem takeMinus_write {negative : Bool} {s : List Char}
    (first : ∀ c ∈ s.head?, isDigit c = true) :
    takeMinus ((if negative then ['-'] else []) ++ s) = (negative, s) := by
  cases negative with
  | true => rfl
  | false =>
    change takeMinus s = (false, s)
    unfold takeMinus
    split
    · exact absurd (first '-' rfl) (by decide)
    · rfl

theorem takeFraction?_write {ds s : List Char} (digits : ds.all isDigit = true)
    (stop : ∀ c ∈ s.head?, isDigit c = false ∧ c ≠ '.') :
    takeFraction? ((if ds = [] then [] else '.' :: ds) ++ s) = some (ds, s) := by
  by_cases none : ds = []
  · subst none
    simp only [if_true, List.nil_append]
    unfold takeFraction?
    split
    · exact absurd rfl (stop '.' rfl).2
    · rfl
  · obtain ⟨taken, left⟩ := digits_span digits fun c hc => (stop c hc).1
    simp only [none, if_false, List.cons_append, takeFraction?, taken, left]

theorem takePower?_append {negative : Bool} {ds s : List Char} (ne : ds ≠ [])
    (digits : ds.all isDigit = true) (stop : ∀ c ∈ s.head?, isDigit c = false) :
    takePower? negative (ds ++ s) = some (some (negative, ds), s) := by
  obtain ⟨taken, left⟩ := digits_span digits stop
  simp only [takePower?, taken, left, ne, if_false]

/-- The exponent of a numeral as it is written. -/
def writeExponent : Option (Bool × List Char) → List Char
  | none => []
  | some (negative, ds) => 'e' :: (if negative then '-' else '+') :: ds

/-- How an exponent may be written: with either letter, and without a plus. -/
inductive WrittenExponent : Option (Bool × List Char) → List Char → Prop where
  | none : WrittenExponent none []
  | unsigned {c : Char} (letter : c = 'e' ∨ c = 'E') (ds : List Char) :
      WrittenExponent (some (false, ds)) (c :: ds)
  | signed {c : Char} (letter : c = 'e' ∨ c = 'E') (negative : Bool) (ds : List Char) :
      WrittenExponent (some (negative, ds)) (c :: (if negative then '-' else '+') :: ds)

theorem written_writeExponent (e : Option (Bool × List Char)) :
    WrittenExponent e (writeExponent e) := by
  cases e with
  | none => exact .none
  | some p => exact .signed (.inl rfl) p.1 p.2

/-- An exponent starts with its letter, and so neither with a digit nor with a point. -/
theorem WrittenExponent.stops {e : Option (Bool × List Char)} {power s : List Char}
    (h : WrittenExponent e power) (ends : Ends s) :
    ∀ c ∈ (power ++ s).head?, isDigit c = false ∧ c ≠ '.' := by
  cases h with
  | none => exact fun c hc => ⟨(ends c hc).1, (ends c hc).2.1⟩
  | unsigned letter | signed letter =>
    rintro _ ⟨⟩
    rcases letter with rfl | rfl <;> decide

theorem takeExponent?_written {e : Option (Bool × List Char)} {power : List Char}
    (h : WrittenExponent e power) (proper : ∀ p ∈ e, p.2 ≠ [] ∧ p.2.all isDigit = true)
    {s : List Char} (ends : Ends s) : takeExponent? (power ++ s) = some (e, s) := by
  have stop : ∀ c ∈ s.head?, isDigit c = false := fun c hc => (ends c hc).1
  cases h with
  | none =>
    cases s with
    | nil => rfl
    | cons c s =>
      obtain ⟨_, _, lower, upper⟩ := ends c rfl
      simp [takeExponent?, lower, upper]
  | unsigned letter ds =>
    obtain ⟨ne, digits⟩ := proper _ rfl
    obtain ⟨d, ds, rfl⟩ := List.exists_cons_of_ne_nil ne
    have digit := List.all_eq_true.1 digits d List.mem_cons_self
    have unsigned {c : Char} (sign : isDigit c = false) (t : List Char) :
        d :: ds ++ s ≠ c :: t := by
      rintro ⟨⟩
      rw [digit] at sign
      cases sign
    rw [List.cons_append, takeExponent?, if_pos letter]
    · exact takePower?_append ne digits stop
    · exact unsigned (by decide)
    · exact unsigned (by decide)
  | signed letter negative ds =>
    obtain ⟨ne, digits⟩ := proper _ rfl
    rcases letter with rfl | rfl <;> cases negative <;> exact takePower?_append ne digits stop

/-- The numeral, with the text of its exponent. -/
def writeWith (n : Numeral) (power : List Char) : List Char :=
  (if n.negative then ['-'] else []) ++ (n.whole ++
    ((if n.fraction = [] then [] else '.' :: n.fraction) ++ power))

theorem write_eq (n : Numeral) : n.write = n.writeWith (writeExponent n.exponent) := by
  rw [write, List.append_assoc, List.append_assoc]
  rfl

/-- A numeral is scanned however its exponent is written. -/
theorem scan?_writeWith {n : Numeral} (h : n.Proper) {power : List Char}
    (written : WrittenExponent n.exponent power) {s : List Char} (ends : Ends s) :
    scan? (n.writeWith power ++ s) = some (n, s) := by
  obtain ⟨whole, whole_digits⟩ := h.whole
  have power_stops := written.stops ends
  have fraction_stops : ∀ c ∈ ((if n.fraction = [] then [] else '.' :: n.fraction) ++
      (power ++ s)).head?, isDigit c = false := by
    intro c hc
    by_cases none : n.fraction = []
    · rw [if_pos none] at hc
      exact (power_stops c hc).1
    · rw [if_neg none] at hc
      cases hc
      decide
  have first : ∀ c ∈ (n.whole ++ ((if n.fraction = [] then [] else '.' :: n.fraction) ++
      (power ++ s))).head?, isDigit c = true := by
    intro c hc
    obtain ⟨d, ds, split⟩ := List.exists_cons_of_ne_nil whole.1
    rw [split] at hc whole_digits
    cases hc
    exact List.all_eq_true.1 whole_digits _ List.mem_cons_self
  have text : n.writeWith power ++ s = (if n.negative then ['-'] else []) ++ (n.whole ++
      ((if n.fraction = [] then [] else '.' :: n.fraction) ++ (power ++ s))) := by
    simp only [writeWith, List.append_assoc]
  obtain ⟨taken, left⟩ := digits_span whole_digits fraction_stops
  rw [text, scan?, takeMinus_write first]
  simp only [taken, left, whole, if_true, takeFraction?_write h.fraction power_stops,
    Option.bind_eq_bind, Option.bind_some, takeExponent?_written written h.exponent ends]
  rfl

section
variable {s t : List Char}

theorem takeMinus_text (s : List Char) :
    s = (if (takeMinus s).1 then ['-'] else []) ++ (takeMinus s).2 := by
  unfold takeMinus
  split <;> rfl

theorem digits_text (s : List Char) :
    (s.takeWhile isDigit).all isDigit = true ∧
      s = s.takeWhile isDigit ++ s.dropWhile isDigit :=
  ⟨List.all_takeWhile, List.takeWhile_append_dropWhile.symm⟩

theorem takeFraction?_text {ds : List Char} (h : takeFraction? s = some (ds, t)) :
    ds.all isDigit = true ∧ s = (if ds = [] then [] else '.' :: ds) ++ t := by
  unfold takeFraction? at h
  split at h
  · rename_i s
    obtain ⟨digits, text⟩ := digits_text s
    dsimp only at h
    split at h
    · cases h
    · rename_i some
      cases h
      refine ⟨digits, ?_⟩
      rw [if_neg some, List.cons_append, ← text]
  · cases h
    exact ⟨rfl, rfl⟩

theorem takePower?_text {negative : Bool} {e : Option (Bool × List Char)}
    (h : takePower? negative s = some (e, t)) :
    ∃ ds, e = some (negative, ds) ∧ (ds ≠ [] ∧ ds.all isDigit = true) ∧ s = ds ++ t := by
  obtain ⟨digits, text⟩ := digits_text s
  simp only [takePower?] at h
  split at h
  · cases h
  · rename_i some
    cases h
    exact ⟨_, rfl, ⟨some, digits⟩, text⟩

theorem takeExponent?_text {e : Option (Bool × List Char)} (h : takeExponent? s = some (e, t)) :
    (∀ p ∈ e, p.2 ≠ [] ∧ p.2.all isDigit = true) ∧
      ∃ power, WrittenExponent e power ∧ s = power ++ t := by
  have bare {s : List Char} : (∀ p ∈ (none : Option (Bool × List Char)),
      p.2 ≠ [] ∧ p.2.all isDigit = true) ∧ ∃ power, WrittenExponent none power ∧ s = power ++ s :=
    ⟨nofun, [], .none, rfl⟩
  unfold takeExponent? at h
  split at h
  · cases h
    exact bare
  · split at h
    · rename_i letter
      split at h
      all_goals
        obtain ⟨ds, rfl, digits, rfl⟩ := takePower?_text h
        refine ⟨?_, ?_⟩
        · rintro _ ⟨⟩
          exact digits
      · exact ⟨_, .signed letter true ds, rfl⟩
      · exact ⟨_, .signed letter false ds, rfl⟩
      · exact ⟨_, .unsigned letter ds, rfl⟩
    · cases h
      exact bare

theorem written_of_scan? {n : Numeral} (h : scan? s = some (n, t)) :
    n.Proper ∧ ∃ power, WrittenExponent n.exponent power ∧ s = n.writeWith power ++ t := by
  simp only [scan?] at h
  split at h
  · rename_i whole
    simp only [Option.bind_eq_bind, Option.bind_eq_some_iff, Prod.exists] at h
    obtain ⟨ds, s₁, pointed, e, s₂, powered, h⟩ := h
    cases h
    obtain ⟨whole_digits, text⟩ := digits_text (takeMinus s).2
    obtain ⟨fraction, text₁⟩ := takeFraction?_text pointed
    obtain ⟨exponent, power, written, text₂⟩ := takeExponent?_text powered
    refine ⟨⟨⟨whole, whole_digits⟩, fraction, exponent⟩, power, written, ?_⟩
    have signed := takeMinus_text s
    rw [text, text₁, text₂] at signed
    exact signed.trans (by simp only [writeWith, List.append_assoc])
  · cases h

end

theorem eq_zero_of_head?_digits {n : Nat} (h : (digits n).head? = some '0') : n = 0 := by
  induction n using digits.induct with
  | case1 n small =>
    rw [digits, if_pos small, List.head?_cons, Option.some.injEq] at h
    have read := digitValue_digit n small
    rw [h] at read
    exact read.symm
  | case2 n large ih =>
    obtain ⟨d, ds, split⟩ := List.exists_cons_of_ne_nil (digits_ne_nil (n / 10))
    rw [digits, if_neg large, split] at h
    have zero := ih (split ▸ h)
    omega

theorem isWhole_digits (n : Nat) : IsWhole (digits n) := by
  refine ⟨digits_ne_nil n, fun leading => ?_⟩
  rw [eq_zero_of_head?_digits leading, digits]
  rfl

theorem proper_ofInt (n : Int) : (ofInt n).Proper where
  whole := ⟨isWhole_digits _, all_isDigit_digits _⟩
  fraction := rfl
  exponent := nofun

/-- An integer of 64 bits, with or without a sign, stands for itself. -/
theorem toInt?_ofInt {n : Int} (low : -9223372036854775808 ≤ n) (high : n < 18446744073709551616) :
    (ofInt n).toInt? = some n := by
  have size : UInt64.size = 18446744073709551616 := rfl
  simp only [toInt?, ofInt, value_digits, size, and_self, if_true, decide_eq_true_eq]
  split
  · rw [if_pos (by omega)]
    simp only [Option.some.injEq]
    omega
  · rw [if_pos (by omega)]
    simp only [Option.some.injEq]
    omega

end Numeral

/-! ## Strings -/

namespace StringPart

open Json

theorem hexValue?_hexDigit : ∀ n < 16, hexValue? (hexDigit n) = some n := by decide

/-- A character below the printed ones has a two-digit code. -/
theorem fourHex?_control {n : Nat} (h : n < 0x20) :
    fourHex? '0' '0' (hexDigit (n / 16)) (hexDigit (n % 16)) = some n := by
  have zero : hexValue? '0' = some 0 := rfl
  have high := hexValue?_hexDigit (n / 16) (by omega)
  have low := hexValue?_hexDigit (n % 16) (by omega)
  simp only [fourHex?, zero, high, low, Option.bind_eq_bind, Option.bind_some, Option.pure_def,
    Option.some.injEq]
  omega

theorem decode?_char (c : Char) (ps : List StringPart) :
    decode? (.char c :: ps) = (decode? ps).map (c :: ·) := by
  rw [decode?]

/-- A unit that is no half of a pair is a character by itself. -/
theorem decode?_control {c : Char} (h : c.toNat < 0x20) (ps : List StringPart) :
    decode? (.unit c.toNat :: ps) = (decode? ps).map (c :: ·) := by
  have high : ¬IsHigh c.toNat := fun high => by
    have := high.1
    omega
  have low : ¬IsLow c.toNat := fun low => by
    have := low.1
    omega
  cases ps with
  | nil => simp only [decode?, high, low, or_self, if_false, Char.ofNat_toNat]
  | cons p ps =>
    cases p with
    | char d => simp only [decode?, high, low, or_self, if_false, Char.ofNat_toNat]
    | unit n => simp only [decode?, high, low, if_false, Char.ofNat_toNat]

theorem scan?_escape {e c : Char} (escape : escaped? e = some c) (s : List Char) :
    scan? ('\\' :: e :: s) = (scan? s).map fun q => (.char c :: q.1, q.2) := by
  have no_code : e ≠ 'u' := by
    rintro rfl
    cases escape
  rw [scan?.eq_def]
  split <;> grind

theorem scan?_printed {c : Char} (printed : ¬c.toNat < 0x20) (quote : c ≠ '"')
    (slash : c ≠ '\\') (s : List Char) :
    scan? (c :: s) = (scan? s).map fun q => (.char c :: q.1, q.2) := by
  rw [scan?.eq_def]
  split <;> grind

/-- The parts of a string as they may stand between its quotes. -/
inductive Written : List StringPart → List Char → Prop where
  | nil : Written [] []
  | char {c ps s} (printed : ¬c.toNat < 0x20) (quote : c ≠ '"') (slash : c ≠ '\\')
      (rest : Written ps s) : Written (.char c :: ps) (c :: s)
  | escape {e c ps s} (escape : escaped? e = some c) (rest : Written ps s) :
      Written (.char c :: ps) ('\\' :: e :: s)
  | unit {a b c d n ps s} (code : fourHex? a b c d = some n) (rest : Written ps s) :
      Written (.unit n :: ps) ('\\' :: 'u' :: a :: b :: c :: d :: s)

theorem Written.scan? {ps : List StringPart} {s : List Char} (h : Written ps s)
    (rest : List Char) : StringPart.scan? (s ++ '"' :: rest) = some (ps, rest) := by
  induction h with
  | nil => rw [List.nil_append, StringPart.scan?]
  | char printed quote slash _ ih =>
    rw [List.cons_append, scan?_printed printed quote slash, ih]
    rfl
  | escape escape _ ih =>
    rw [List.cons_append, List.cons_append, scan?_escape escape, ih]
    rfl
  | unit code _ ih =>
    simp only [List.cons_append]
    rw [StringPart.scan?, code]
    dsimp only
    rw [ih]
    rfl

theorem written_of_scan? {ps : List StringPart} {s t : List Char}
    (h : scan? s = some (ps, t)) :
    ∃ w, Written ps w ∧ s = w ++ '"' :: t := by
  fun_induction scan? s generalizing ps with
  | case1 | case4 | case6 | case7 => cases h
  | case2 =>
    cases h
    exact ⟨[], .nil, rfl⟩
  | case3 a b c d s n code ih =>
    obtain ⟨⟨qs, rest⟩, scanned, same⟩ := Option.map_eq_some_iff.1 h
    cases same
    obtain ⟨w, written, rfl⟩ := ih scanned
    exact ⟨_, .unit code written, rfl⟩
  | case5 e s _ c escape ih =>
    obtain ⟨⟨qs, rest⟩, scanned, same⟩ := Option.map_eq_some_iff.1 h
    cases same
    obtain ⟨w, written, rfl⟩ := ih scanned
    exact ⟨_, .escape escape written, rfl⟩
  | case8 c s quote _ _ printed ih =>
    obtain ⟨control, slash⟩ := not_or.1 printed
    obtain ⟨⟨qs, rest⟩, scanned, same⟩ := Option.map_eq_some_iff.1 h
    cases same
    obtain ⟨w, written, rfl⟩ := ih scanned
    exact ⟨_, .char control quote slash written, rfl⟩

/-- A character is written as one part, which stands for it. -/
theorem exists_written_char (c : Char) :
    ∃ p, (∀ ps s, Written ps s → Written (p :: ps) (writeChar c ++ s)) ∧
      ∀ ps, decode? (p :: ps) = (decode? ps).map (c :: ·) := by
  have escaped {e : Char} (escape : escaped? e = some c) (text : writeChar c = ['\\', e]) :
      ∃ p, (∀ ps s, Written ps s → Written (p :: ps) (writeChar c ++ s)) ∧
        ∀ ps, decode? (p :: ps) = (decode? ps).map (c :: ·) := by
    refine ⟨.char c, ?_, decode?_char c⟩
    intro ps s rest
    rw [text]
    exact .escape escape rest
  by_cases quoted : c = '"' ∨ c = '\\'
  · refine escaped (e := c) ?_ (by rw [writeChar, if_pos quoted])
    rcases quoted with rfl | rfl <;> rfl
  · by_cases short : c ∈ ['\x08', '\x0c', '\n', '\r', '\t']
    · simp only [List.mem_cons, List.not_mem_nil, or_false] at short
      rcases short with rfl | rfl | rfl | rfl | rfl
      · exact escaped (e := 'b') rfl rfl
      · exact escaped (e := 'f') rfl rfl
      · exact escaped (e := 'n') rfl rfl
      · exact escaped (e := 'r') rfl rfl
      · exact escaped (e := 't') rfl rfl
    · simp only [List.mem_cons, List.not_mem_nil, or_false, not_or] at short
      obtain ⟨b, f, n, r, t⟩ := short
      by_cases control : c.toNat < 0x20
      · refine ⟨.unit c.toNat, ?_, decode?_control control⟩
        intro ps s rest
        simp only [writeChar, quoted, b, f, n, r, t, control, if_true, if_false]
        exact .unit (fourHex?_control control) rest
      · refine ⟨.char c, ?_, decode?_char c⟩
        intro ps s rest
        simp only [writeChar, quoted, b, f, n, r, t, control, if_false]
        exact .char control (not_or.1 quoted).1 (not_or.1 quoted).2 rest

theorem exists_written_chars (cs : List Char) :
    ∃ ps, Written ps (cs.flatMap writeChar) ∧ decode? ps = some cs := by
  induction cs with
  | nil => exact ⟨[], .nil, rfl⟩
  | cons c cs ih =>
    obtain ⟨ps, rest, decoded⟩ := ih
    obtain ⟨p, first, stands⟩ := exists_written_char c
    refine ⟨p :: ps, first ps _ rest, ?_⟩
    rw [stands, decoded]
    rfl

end StringPart

/-! ## Tokens -/

namespace Json

inductive Token.Written : Token → List Char → Prop where
  | braceOpen : Written .braceOpen ['\x7b']
  | braceClose : Written .braceClose ['\x7d']
  | bracketOpen : Written .bracketOpen ['[']
  | bracketClose : Written .bracketClose [']']
  | colon : Written .colon [':']
  | comma : Written .comma [',']
  | null : Written .null "null".toList
  | bool (b : Bool) : Written (.bool b) (if b then "true".toList else "false".toList)
  | num {n power} (proper : n.Proper) (exponent : Numeral.WrittenExponent n.exponent power) :
      Written (.num n) (n.writeWith power)
  | str {ps s} (parts : StringPart.Written ps s) :
      Written (.str ((StringPart.decode? ps).map String.ofList)) ('"' :: (s ++ ['"']))

/-- A string is written in quotes, whatever its characters. -/
theorem written_writeText (t : String) : Token.Written (.str (some t)) (writeText (some t)) := by
  obtain ⟨ps, parts, decoded⟩ := StringPart.exists_written_chars t.toList
  have written := Token.Written.str parts
  rw [decoded, Option.map_some, String.ofList_toList] at written
  exact written

/-- A numeral starts with a minus or a digit. -/
theorem head?_writeWith {n : Numeral} (h : n.Proper) (power : List Char) :
    ∃ c s, n.writeWith power = c :: s ∧ (c = '-' ∨ isDigit c = true) := by
  obtain ⟨whole, digits⟩ := h.whole
  obtain ⟨d, ds, split⟩ := List.exists_cons_of_ne_nil whole.1
  rw [Numeral.writeWith, split]
  cases n.negative with
  | true => exact ⟨'-', _, rfl, .inl rfl⟩
  | false =>
    rw [split] at digits
    exact ⟨d, _, rfl, .inr (List.all_eq_true.1 digits d List.mem_cons_self)⟩

/-- Nothing else starts like a numeral. -/
theorem scan?_of_first {c : Char} (first : c = '-' ∨ isDigit c = true) (s : List Char) :
    Token.scan? (c :: s) = scanNumber? (c :: s) := by
  rw [Token.scan?.eq_def]
  split
  case h_11 => rfl
  all_goals
    rename_i starts
    obtain ⟨rfl, _⟩ := List.cons.inj starts
    exact absurd first (by decide)

theorem scan?_numeral {n : Numeral} (h : n.Proper) {power : List Char}
    (written : Numeral.WrittenExponent n.exponent power) {s : List Char} (ends : Ends s) :
    Token.scan? (n.writeWith power ++ s) = some (.num n, s) := by
  have scanned := Numeral.scan?_writeWith h written ends
  obtain ⟨c, t, text, first⟩ := head?_writeWith h power
  rw [text, List.cons_append] at scanned ⊢
  rw [scan?_of_first first, scanNumber?, scanned]
  rfl

theorem isSpace_of_isDigit {c : Char} (h : isDigit c = true) : isSpace c = false := by
  apply Bool.eq_false_iff.2
  intro space
  simp only [isSpace, Bool.or_eq_true, decide_eq_true_eq] at space
  rcases space with ((rfl | rfl) | rfl) | rfl <;> exact absurd h (by decide)

/-- A bracket, a brace, a colon or a comma. -/
def Token.IsMark (t : Token) : Prop :=
  t ∈ [.braceOpen, .braceClose, .bracketOpen, .bracketClose, .colon, .comma]

instance (t : Token) : Decidable t.IsMark := inferInstanceAs (Decidable (_ ∈ _))

section
variable {t : Token} {word s : List Char}

theorem Token.Written.head (h : t.Written word) :
    ∃ c rest, word = c :: rest ∧ isSpace c = false := by
  cases h with
  | num proper exponent =>
    obtain ⟨c, rest, text, first⟩ := head?_writeWith proper _
    refine ⟨c, rest, text, ?_⟩
    rcases first with rfl | digit
    · decide
    · exact isSpace_of_isDigit digit
  | bool b => cases b <;> exact ⟨_, _, rfl, by decide⟩
  | _ => exact ⟨_, _, rfl, by decide⟩

/-- A numeral needs an end; every other token has its own. -/
theorem Token.Written.scan? (h : t.Written word) (ends : t.IsMark ∨ Ends s) :
    Token.scan? (word ++ s) = some (t, s) := by
  cases h with
  | num proper exponent =>
    rcases ends with mark | ends
    · simp [Token.IsMark] at mark
    · exact scan?_numeral proper exponent ends
  | str parts =>
    rw [List.cons_append, List.append_assoc, List.singleton_append, Token.scan?,
      parts.scan?]
    rfl
  | bool b => cases b <;> simp [Token.scan?]
  | _ => simp [Token.scan?]

theorem Token.written_of_scan? {rest : List Char} (h : Token.scan? s = some (t, rest)) :
    ∃ w, t.Written w ∧ s = w ++ rest := by
  unfold Token.scan? at h
  split at h
  case h_7 s =>
    obtain ⟨⟨ps, rest⟩, scanned, same⟩ := Option.map_eq_some_iff.1 h
    cases same
    obtain ⟨w, parts, rfl⟩ := StringPart.written_of_scan? scanned
    exact ⟨_, .str parts, by simp⟩
  case h_11 =>
    obtain ⟨⟨n, rest⟩, scanned, same⟩ := Option.map_eq_some_iff.1 h
    cases same
    obtain ⟨proper, power, exponent, rfl⟩ := Numeral.written_of_scan? scanned
    exact ⟨_, .num proper exponent, rfl⟩
  all_goals cases h
  · exact ⟨_, .braceOpen, rfl⟩
  · exact ⟨_, .braceClose, rfl⟩
  · exact ⟨_, .bracketOpen, rfl⟩
  · exact ⟨_, .bracketClose, rfl⟩
  · exact ⟨_, .colon, rfl⟩
  · exact ⟨_, .comma, rfl⟩
  · exact ⟨_, .null, rfl⟩
  · exact ⟨_, .bool true, rfl⟩
  · exact ⟨_, .bool false, rfl⟩

end

theorem tokens?_eq (s : List Char) :
    tokens? s = match s.dropWhile isSpace with
      | [] => some []
      | c :: rest => (Token.scan? (c :: rest)).bind fun p => (tokens? p.2).map (p.1 :: ·) := by
  rw [tokens?]
  split
  · rename_i blank
    rw [blank]
  · rename_i c rest first
    rw [first]
    dsimp only
    split
    · rename_i refused
      rw [refused, Option.bind_none]
    · rename_i t more scanned
      rw [scanned, Option.bind_some]

/-- A text that starts with a token, and not with white space. -/
theorem tokens?_of_scan? {s rest : List Char} {t : Token} (scanned : Token.scan? s = some (t, rest))
    (first : ∀ c ∈ s.head?, isSpace c = false) : tokens? s = (tokens? rest).map (t :: ·) := by
  cases s with
  | nil => cases scanned
  | cons c s =>
    have start : (c :: s).dropWhile isSpace = c :: s := by simp [first c rfl]
    rw [tokens?_eq, start]
    dsimp only
    rw [scanned, Option.bind_some]

theorem tokens?_blanks {blank : List Char} (spaces : ∀ c ∈ blank, isSpace c = true)
    (s : List Char) : tokens? (blank ++ s) = tokens? s := by
  rw [tokens?_eq, tokens?_eq s, List.dropWhile_append_of_pos spaces]

end Json
end IceMaze
