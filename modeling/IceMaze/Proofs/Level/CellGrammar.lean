import IceMaze.Proofs.Level.PieceText

/-!
What may stand behind the name of a section.

Cells are groups of two numbers in parentheses, with commas between the groups; blanks may stand
around the numbers, the groups and the whole. The reader does not follow this grammar: it looks for
the next closing parenthesis and the first comma before it. Still it takes a group off the front
exactly if one is spelled there (`readCell?_eq_some`), and reads all the groups that are spelled
(`spelled_of_readCells?`, `SpellsCells.readCells?`). Any other text is refused, and shown without
the blanks around it (`cells_read_by_grammar`).
-/

namespace IceMaze.LevelText

open Text

/-! ## The grammar -/

/-- A text that `P` holds of, with nothing but blanks around it. -/
def Padded (P : List Char → Prop) (s : List Char) : Prop :=
  ∃ a t b, Blank a ∧ P t ∧ Blank b ∧ s = a ++ t ++ b

/-- A sign or none, and then at least one digit. -/
inductive SpellsNumber : List Char → Int → Prop where
  | unsigned {ds} (ne : ds ≠ []) (digits : ∀ c ∈ ds, isDigit c = true) :
      SpellsNumber ds (value ds)
  | plus {ds} (ne : ds ≠ []) (digits : ∀ c ∈ ds, isDigit c = true) :
      SpellsNumber ('+' :: ds) (value ds)
  | minus {ds} (ne : ds ≠ []) (digits : ∀ c ∈ ds, isDigit c = true) :
      SpellsNumber ('-' :: ds) (-(value ds : Int))

/-- Two numbers that fit 32 bits, in parentheses and with a comma between them. -/
inductive SpellsCell : List Char → Coord → Prop where
  | group {x y c} (column : Padded (SpellsNumber · c.x) x) (row : Padded (SpellsNumber · c.y) y)
      (writable : c.Writable) : SpellsCell ('(' :: (x ++ ',' :: (y ++ [')']))) c

/-- At least one group, and a comma between one and the next. -/
inductive SpellsCells : List Char → List Coord → Prop where
  | last {s c} (cell : SpellsCell s c) : SpellsCells s [c]
  | more {s a b t c cs} (cell : SpellsCell s c) (before : Blank a) (after : Blank b)
      (rest : SpellsCells t cs) : SpellsCells (s ++ (a ++ ',' :: (b ++ t))) (c :: cs)

/-- If `P` holds of trimmed texts only, the text with blanks around it is found by trimming. -/
theorem padded_iff_trim {P : List Char → Prop} (trimmed : ∀ t, P t → trim t = t) {s : List Char} :
    Padded P s ↔ P (trim s) := by
  constructor
  · rintro ⟨a, t, b, before, h, after, rfl⟩
    rwa [trim_between_blanks before after, trimmed t h]
  · intro h
    obtain ⟨a, b, before, after, whole⟩ := exists_trim s
    exact ⟨a, trim s, b, before, h, after, whole⟩

/-! ## Numbers -/

section
variable {s : List Char} {n : Int}

theorem SpellsNumber.sign_or_digit (h : SpellsNumber s n) :
    ∀ c ∈ s, c = '+' ∨ c = '-' ∨ isDigit c = true := by
  have digit_case {ds : List Char} (digits : ∀ c ∈ ds, isDigit c = true) :
      ∀ c ∈ ds, c = '+' ∨ c = '-' ∨ isDigit c = true := fun c hc => .inr (.inr (digits c hc))
  cases h with
  | unsigned _ digits => exact digit_case digits
  | plus _ digits => exact List.forall_mem_cons.2 ⟨.inl rfl, digit_case digits⟩
  | minus _ digits => exact List.forall_mem_cons.2 ⟨.inr (.inl rfl), digit_case digits⟩

theorem SpellsNumber.solid (h : SpellsNumber s n) : Solid s := by
  intro c hc
  rcases h.sign_or_digit c hc with rfl | rfl | digit
  · decide
  · decide
  · exact isBlank_of_isDigit digit

theorem readNat?_eq_some {n : Nat} :
    readNat? s = some n ↔ s ≠ [] ∧ (∀ c ∈ s, isDigit c = true) ∧ value s = n := by
  rw [readNat?, Option.ite_none_right_eq_some, Option.some_inj, List.all_eq_true, and_assoc]

/-- Digits that are read as a number with a sign. -/
theorem map_readNat?_eq_some {sign : Nat → Int} :
    (readNat? s).map sign = some n ↔
      s ≠ [] ∧ (∀ c ∈ s, isDigit c = true) ∧ sign (value s) = n := by
  simp only [Option.map_eq_some_iff, readNat?_eq_some]
  constructor
  · rintro ⟨_, ⟨ne, digits, rfl⟩, rfl⟩
    exact ⟨ne, digits, rfl⟩
  · rintro ⟨ne, digits, rfl⟩
    exact ⟨_, ⟨ne, digits, rfl⟩, rfl⟩

theorem readInt?_minus (ds : List Char) :
    readInt? ('-' :: ds) = (readNat? ds).map fun m : Nat => -(m : Int) := by
  rw [readInt?]
  cases readNat? ds <;> rfl

theorem readInt?_eq_some : readInt? s = some n ↔ SpellsNumber s n := by
  constructor
  · intro h
    unfold readInt? at h
    split at h
    · rename_i ds
      obtain ⟨ne, digits, rfl⟩ := map_readNat?_eq_some.1 ((readInt?_minus ds).symm.trans h)
      exact .minus ne digits
    · obtain ⟨ne, digits, rfl⟩ := map_readNat?_eq_some.1 h
      exact .plus ne digits
    · obtain ⟨ne, digits, rfl⟩ := map_readNat?_eq_some.1 h
      exact .unsigned ne digits
  · intro h
    cases h with
    | minus ne digits =>
      rw [readInt?_minus]
      exact map_readNat?_eq_some.2 ⟨ne, digits, rfl⟩
    | plus ne digits => exact map_readNat?_eq_some.2 ⟨ne, digits, rfl⟩
    | unsigned ne digits =>
      unfold readInt?
      split
      · exact absurd (digits '-' List.mem_cons_self) (by decide)
      · exact absurd (digits '+' List.mem_cons_self) (by decide)
      · exact map_readNat?_eq_some.2 ⟨ne, digits, rfl⟩

theorem readCoordinate?_eq_some :
    readCoordinate? s = some n ↔ Padded (SpellsNumber · n) s ∧ Coord.InRange n := by
  rw [readCoordinate?, Option.filter_eq_some_iff, readInt?_eq_some,
    padded_iff_trim fun _ spelled => trim_of_solid spelled.solid, decide_eq_true_eq]

/-- A number and the blanks around it hold no mark of a group. -/
theorem not_mem_of_padded {c : Char} (h : Padded (SpellsNumber · n) s)
    (mark : isBlank c = false ∧ c ≠ '+' ∧ c ≠ '-' ∧ isDigit c = false) : c ∉ s := by
  obtain ⟨printed, plus, minus, other⟩ := mark
  obtain ⟨a, t, b, before, spelled, after, rfl⟩ := h
  have inside : c ∉ t := by
    intro hc
    rcases spelled.sign_or_digit c hc with same | same | digit
    · exact plus same
    · exact minus same
    · rw [other] at digit
      cases digit
  simp [before.not_mem printed, inside, after.not_mem printed]

end

/-! ## Groups -/

section
variable {s : List Char} {c : Coord}

theorem SpellsCell.ends (h : SpellsCell s c) : s.head? = some '(' ∧ s.getLast? = some ')' := by
  cases h
  simp [List.getLast?_cons, List.getLast?_append]

/-- The first closing parenthesis is that of the group, and the first comma before it stands
between its numbers. -/
theorem SpellsCell.readCell? (h : SpellsCell s c) (rest : List Char) :
    readCell? (s ++ rest) = some (c, rest) := by
  cases h with
  | @group x y _ column row writable =>
    have text : '(' :: (x ++ ',' :: (y ++ [')'])) ++ rest =
        '(' :: ((x ++ ',' :: y) ++ ')' :: rest) := by
      simp
    have outer : ')' ∉ x ++ ',' :: y := by
      have left : ')' ∉ x := not_mem_of_padded column (by decide)
      have right : ')' ∉ y := not_mem_of_padded row (by decide)
      simp [left, right]
    have inner : ',' ∉ x := not_mem_of_padded column (by decide)
    rw [text, LevelText.readCell?, cut?_eq_some.2 ⟨rfl, outer⟩]
    simp [cut?_eq_some.2 ⟨rfl, inner⟩, readCoordinate?_eq_some.2 ⟨column, writable.1⟩,
      readCoordinate?_eq_some.2 ⟨row, writable.2⟩]

theorem readCell?_eq_some {rest : List Char} :
    readCell? s = some (c, rest) ↔ ∃ t, SpellsCell t c ∧ s = t ++ rest := by
  constructor
  · intro h
    unfold readCell? at h
    split at h
    · simp only [Option.bind_eq_bind, Option.bind_eq_some_iff, Prod.exists] at h
      obtain ⟨inner, after, close, x, y, comma, m, column, n, row, h⟩ := h
      cases h
      obtain ⟨rfl, _⟩ := cut?_eq_some.1 close
      obtain ⟨rfl, _⟩ := cut?_eq_some.1 comma
      obtain ⟨column, fits⟩ := readCoordinate?_eq_some.1 column
      obtain ⟨row, fits'⟩ := readCoordinate?_eq_some.1 row
      exact ⟨_, .group column row ⟨fits, fits'⟩, by simp⟩
    · cases h
  · rintro ⟨t, cell, rfl⟩
    exact cell.readCell? rest

end

/-! ## Cells -/

section
variable {s : List Char} {cells : List Coord}

theorem SpellsCells.ne_nil (h : SpellsCells s cells) : cells ≠ [] := by
  cases h <;> exact List.cons_ne_nil _ _

theorem SpellsCells.ends (h : SpellsCells s cells) :
    s.head? = some '(' ∧ s.getLast? = some ')' := by
  induction h with
  | last cell => exact cell.ends
  | more cell _ _ _ ih => simp [cell.ends, ih, List.getLast?_append, List.getLast?_cons]

theorem SpellsCells.trimStart_append (h : SpellsCells s cells) (t : List Char) :
    trimStart (s ++ t) = s ++ t := by
  apply trimStart_of_head
  rw [List.head?_append, h.ends.1]
  rintro c ⟨⟩
  decide

theorem SpellsCells.trim (h : SpellsCells s cells) : trim s = s := by
  apply trim_of_ends
  · rw [h.ends.1]
    rintro c ⟨⟩
    decide
  · rw [h.ends.2]
    rintro c ⟨⟩
    decide

/-- Behind the first group, the text is at its end, or a comma stands in front of the others. -/
theorem readCells?_eq_some_cons {c : Coord} :
    readCells? s = some (c :: cells) ↔ ∃ rest, readCell? s = some (c, rest) ∧
      (Blank rest ∧ cells = [] ∨
        ∃ more, trimStart rest = ',' :: more ∧ readCells? (trimStart more) = some cells) := by
  rw [readCells?_eq, Option.bind_eq_some_iff]
  constructor
  · rintro ⟨⟨d, rest⟩, first, h⟩
    dsimp only at h
    split at h
    · rename_i done
      cases h
      exact ⟨rest, first, .inl ⟨trimStart_eq_nil_iff.1 done, rfl⟩⟩
    · rename_i more comma
      obtain ⟨ds, others, h⟩ := Option.map_eq_some_iff.1 h
      cases h
      exact ⟨rest, first, .inr ⟨more, comma, others⟩⟩
    · cases h
  · rintro ⟨rest, first, ⟨done, rfl⟩ | ⟨more, comma, others⟩⟩
    · refine ⟨_, first, ?_⟩
      simp only [trimStart_eq_nil_iff.2 done]
    · refine ⟨_, first, ?_⟩
      simp only [comma, others, Option.map_some]

theorem readCells?_ne_nil : readCells? s ≠ some [] := by
  intro h
  rw [readCells?_eq] at h
  obtain ⟨p, _, h⟩ := Option.bind_eq_some_iff.1 h
  split at h
  · cases h
  · obtain ⟨_, _, ⟨⟩⟩ := Option.map_eq_some_iff.1 h
  · cases h

/-- What has been read is spelled. Only blanks are left behind it. -/
theorem spelled_of_readCells? (h : readCells? s = some cells) :
    ∃ t b, SpellsCells t cells ∧ Blank b ∧ s = t ++ b := by
  -- on the cells, not on the text: the reader finds one of them in each step
  induction cells generalizing s with
  | nil => exact absurd h readCells?_ne_nil
  | cons c cs ih =>
    obtain ⟨rest, first, more⟩ := readCells?_eq_some_cons.1 h
    obtain ⟨t, cell, rfl⟩ := readCell?_eq_some.1 first
    rcases more with ⟨done, rfl⟩ | ⟨more, comma, others⟩
    · exact ⟨t, rest, .last cell, done, rfl⟩
    · obtain ⟨u, b, spelled, done, split⟩ := ih others
      obtain ⟨before, blank, at_comma⟩ := exists_trimStart rest
      obtain ⟨after, blank', at_group⟩ := exists_trimStart more
      refine ⟨_, b, .more cell blank blank' spelled, done, ?_⟩
      rw [at_comma, comma, at_group, split]
      simp

/-- What is spelled is read, also with blanks behind it. -/
theorem SpellsCells.readCells? {b : List Char} (h : SpellsCells s cells) (blank : Blank b) :
    readCells? (s ++ b) = some cells := by
  induction h with
  | last cell => exact readCells?_eq_some_cons.2 ⟨b, cell.readCell? b, .inl ⟨blank, rfl⟩⟩
  | @more s before after t c cs cell blank blank' rest ih =>
    have comma : trimStart (before ++ ',' :: (after ++ (t ++ b))) = ',' :: (after ++ (t ++ b)) := by
      rw [trimStart_blank_append blank, trimStart_of_head]
      rintro d ⟨⟩
      decide
    have others : LevelText.readCells? (trimStart (after ++ (t ++ b))) = some cs := by
      rw [trimStart_blank_append blank', rest.trimStart_append b]
      exact ih
    have text : s ++ (before ++ ',' :: (after ++ t)) ++ b =
        s ++ (before ++ ',' :: (after ++ (t ++ b))) := by
      simp
    rw [text]
    exact readCells?_eq_some_cons.2 ⟨_, cell.readCell? _, .inr ⟨_, comma, others⟩⟩

theorem readCells_iff_spelled (name : List Char) {args : List Char} :
    readCells name args = .ok cells ↔ Padded (SpellsCells · cells) args := by
  rw [readCells_eq_ok]
  constructor
  · intro h
    obtain ⟨t, b, spelled, blank, split⟩ := spelled_of_readCells? h
    obtain ⟨before, after, blank', blank'', whole⟩ := exists_trim args
    refine ⟨before, t, b ++ after, blank', spelled, blank.append blank'', ?_⟩
    rw [whole, split]
    simp
  · intro h
    have spelled := (padded_iff_trim fun _ spelled => spelled.trim).1 h
    rw [← List.append_nil (trim args)]
    exact spelled.readCells? .nil

end

/-- A text is read as the cells that it spells, and refused if it spells none. -/
theorem cells_read_by_grammar (name args : List Char) :
    (∀ cells, readCells name args = .ok cells ↔
      cells ≠ [] ∧ Padded (SpellsCells · cells) args) ∧
    ∀ e, readCells name args = .error e ↔
      (¬∃ cells, Padded (SpellsCells · cells) args) ∧
        e = .malformed (String.ofList name) (String.ofList (trim args)) := by
  constructor
  · intro cells
    rw [readCells_iff_spelled, iff_and_self]
    rintro ⟨_, t, _, _, spelled, _⟩
    exact spelled.ne_nil
  · intro e
    simp only [← readCells_iff_spelled name, readCells]
    split <;> simp [eq_comm]

-- signs, leading zeros and blanks of any kind
example : readCells? "( +1 ,\t-007 ) , (3,4)".toList = some [⟨1, -7⟩, ⟨3, 4⟩] := by decide +kernel

example : readCells? "(1,2),".toList = none := by decide +kernel

end IceMaze.LevelText
