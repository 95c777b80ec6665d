import IceMaze.Proofs.Level.Bounds
import IceMaze.Proofs.Level.MapText
import IceMaze.Proofs.Level.Shape
import Mathlib.Data.List.Forall2

/-!
What may stand between `map` and `;`.

A line spells a row as runs between commas, and a row may be cut into runs in any way. The reader
finds the map whose rows are spelled, and otherwise names the first piece that is no run, or what is
wrong with the shape of the rows (`maps_read_by_grammar`). Each level of the grammar has a lemma for
what is read and one for what is refused: pieces, lines, and the lines of a text.
-/

namespace IceMaze.LevelText

open Text

/-! ## The grammar -/

/-- A tile's word, and in front of it nothing or the digits of a count from 1 to the board's
width. -/
inductive SpellsRun : List Char → List TileKind → Prop where
  | one (kind : TileKind) : SpellsRun kind.token.toList [kind]
  | several {count : List Char} (kind : TileKind) (ne : count ≠ [])
      (digits : ∀ c ∈ count, isDigit c = true) (pos : 1 ≤ value count)
      (bound : value count ≤ boardWidth) :
      SpellsRun (count ++ kind.token.toList) (List.replicate (value count) kind)

def IsRun (piece : List Char) : Prop := ∃ tiles, SpellsRun piece tiles

/-- The trimmed pieces of a line between its commas. -/
def piecesOf (line : List Char) : List (List Char) := (splitAt ',' line).map trim

/-- The pieces of the line are runs, which make up the row one after the other. -/
def SpellsRow (line : List Char) (row : List TileKind) : Prop :=
  ∃ runs, List.Forall₂ SpellsRun (piecesOf line) runs ∧ row = runs.flatten

/-- The lines of a text, trimmed, without those that are blank. -/
def filledLines (s : List Char) : List (List Char) :=
  ((splitAt '\n' s).map trim).filter (· ≠ [])

def SpellsRows (body : List Char) (rows : List (List TileKind)) : Prop :=
  List.Forall₂ SpellsRow (filledLines body) rows

/-- In reading order, `piece` is the first piece that is no run; `row` lines come before its
line. -/
def FirstFault (body : List Char) (row : Nat) (piece : List Char) : Prop :=
  ∃ before line after good rest, filledLines body = before ++ line :: after ∧
    before.length = row ∧ (∀ l ∈ before, ∀ p ∈ piecesOf l, IsRun p) ∧
    piecesOf line = good ++ piece :: rest ∧ (∀ p ∈ good, IsRun p) ∧ ¬IsRun piece

/-- How a piece that is no run is refused: for its word, or else for its count. -/
inductive PieceFault (map : List Char) (row : Nat) (piece : List Char) : LevelError → Prop where
  | word (unknown : ∀ kind : TileKind, piece.dropWhile isDigit ≠ kind.token.toList) :
      PieceFault map row piece (.unknownTile (String.ofList piece) row (String.ofList map))
  | count {kind : TileKind} (known : piece.dropWhile isDigit = kind.token.toList)
      (bad : ¬IsRun piece) : PieceFault map row piece (.invalidCount (String.ofList piece) row)

/-- How a text that is no map is refused: for a piece, or else for the shape of its rows. -/
inductive MapFault (body : List Char) : LevelError → Prop where
  | piece {row piece e} (first : FirstFault body row piece)
      (fault : PieceFault (trim body) row piece e) : MapFault body e
  | shape {rows e} (spelled : SpellsRows body rows) (shape : TileMap.Misshapen rows e) :
      MapFault body e

/-! ## Lines -/

theorem filledLines_append (s t : List Char) :
    filledLines (s ++ '\n' :: t) = filledLines s ++ filledLines t := by
  rw [filledLines, splitAt_append, List.map_append, List.filter_append, filledLines, filledLines]

theorem filledLines_of_not_mem {s : List Char} (h : '\n' ∉ s) :
    filledLines s = [trim s].filter (· ≠ []) := by
  rw [filledLines, splitAt_of_not_mem h, List.map_singleton]

theorem filledLines_cons_blank {c : Char} (h : isBlank c = true) (s : List Char) :
    filledLines (c :: s) = filledLines s := by
  by_cases newline : c = '\n'
  · subst newline
    exact filledLines_append [] s
  · have alone {t : List Char} (ht : '\n' ∉ t) : filledLines (c :: t) = filledLines t := by
      have plain : '\n' ∉ c :: t := by
        rw [List.mem_cons, not_or]
        exact ⟨Ne.symm newline, ht⟩
      rw [filledLines_of_not_mem plain, filledLines_of_not_mem ht, trim_blank h]
    cases s using piecewise '\n' with
    | last s hs => exact alone hs
    | first s t hs _ =>
      rw [← List.cons_append, filledLines_append, alone hs, filledLines_append]

theorem filledLines_concat_blank {c : Char} (h : isBlank c = true) (s : List Char) :
    filledLines (s ++ [c]) = filledLines s := by
  by_cases newline : c = '\n'
  · subst newline
    rw [filledLines_append]
    exact List.append_nil _
  · have blank : Blank [c] := by simpa [Blank] using h
    induction s using piecewise '\n' with
    | last s hs =>
      have plain : '\n' ∉ s ++ [c] := by
        rw [List.mem_append, List.mem_singleton, not_or]
        exact ⟨hs, Ne.symm newline⟩
      rw [filledLines_of_not_mem plain, filledLines_of_not_mem hs, trim_append_blank blank]
    | first s t hs ih =>
      rw [List.append_assoc, List.cons_append, filledLines_append, ih, filledLines_append]

theorem filledLines_trimStart (s : List Char) : filledLines (trimStart s) = filledLines s := by
  induction s with
  | nil => rfl
  | cons c s ih =>
    by_cases blank : isBlank c = true
    · rw [trimStart_blank blank, ih, filledLines_cons_blank blank]
    · rw [trimStart, List.dropWhile_cons_of_neg blank]

theorem filledLines_trimEnd (s : List Char) : filledLines (trimEnd s) = filledLines s := by
  induction s using List.reverseRecOn with
  | nil => rfl
  | append_singleton s c ih =>
    by_cases blank : isBlank c = true
    · have last : Blank [c] := by simpa [Blank] using blank
      rw [trimEnd_append_blank last, ih, filledLines_concat_blank blank]
    · rw [trimEnd_concat (Bool.eq_false_iff.2 blank)]

theorem filledLines_trim (s : List Char) : filledLines (trim s) = filledLines s := by
  rw [trim, filledLines_trimEnd, filledLines_trimStart]

/-- A carriage return before a newline and a last line without text make no difference to the
lines that are not blank. -/
theorem rowLines_eq (s : List Char) : rowLines s = filledLines s := by
  have trimmed (ls : List (List Char)) : (ls.map dropReturn).map trim = ls.map trim := by
    rw [List.map_map]
    exact List.map_congr_left fun l _ => trim_dropReturn l
  obtain ⟨closed, last, pieces, closed_lines⟩ := exists_pieces s
  rw [rowLines, closed_lines, filledLines, pieces, List.map_append, List.map_append,
    List.filter_append, List.filter_append, trimmed]
  congr 1
  by_cases none : last = []
  · subst none
    rfl
  · simp [none]

/-! ## Runs -/

theorem ofToken?_eq_some {word : List Char} {kind : TileKind} :
    TileKind.ofToken? (String.ofList word) = some kind ↔ word = kind.token.toList := by
  constructor
  · intro h
    have same := List.find?_some h
    rw [eq_of_beq same, String.toList_ofList]
  · rintro rfl
    rw [String.ofList_toList, TileKind.ofToken?_token]

theorem ofToken?_eq_none {word : List Char} :
    TileKind.ofToken? (String.ofList word) = none ↔ ∀ kind : TileKind, word ≠ kind.token.toList := by
  rw [Option.eq_none_iff_forall_ne_some]
  exact forall_congr' fun kind => not_congr ofToken?_eq_some

/-- The number of tiles that a piece asks for; one if it has no count. -/
def countOf (piece : List Char) : Nat :=
  if piece.takeWhile isDigit = [] then 1 else value (piece.takeWhile isDigit)

theorem spellsRun_iff {piece : List Char} {tiles : List TileKind} :
    SpellsRun piece tiles ↔ ∃ kind : TileKind, piece.dropWhile isDigit = kind.token.toList ∧
      (1 ≤ countOf piece ∧ countOf piece ≤ boardWidth) ∧
      tiles = List.replicate (countOf piece) kind := by
  have stop (kind : TileKind) : ∀ c ∈ kind.token.toList.head?, isDigit c = false := by
    intro c hc
    exact isDigit_of_isLetter (isLetter_token kind c (List.mem_of_mem_head? hc))
  constructor
  · intro h
    cases h with
    | one kind =>
      obtain ⟨none, word⟩ := takeWhile_dropWhile_append (s := []) nofun (stop kind)
      rw [List.nil_append] at none word
      have number : countOf kind.token.toList = 1 := by rw [countOf, if_pos none]
      rw [number]
      exact ⟨kind, word, by decide, rfl⟩
    | several kind ne digits pos bound =>
      obtain ⟨count, word⟩ := takeWhile_dropWhile_append digits (stop kind)
      refine ⟨kind, word, ?_⟩
      rw [countOf, count, if_neg ne]
      exact ⟨⟨pos, bound⟩, rfl⟩
  · rintro ⟨kind, word, range, rfl⟩
    have whole := List.takeWhile_append_dropWhile (p := isDigit) (l := piece)
    rw [word] at whole
    unfold countOf at range ⊢
    split at range
    · rename_i none
      rw [none, List.nil_append] at whole
      rw [if_pos none, ← whole]
      exact .one kind
    · rename_i some
      have digits : ∀ c ∈ piece.takeWhile isDigit, isDigit c = true :=
        List.all_eq_true.1 List.all_takeWhile
      have spelled := SpellsRun.several kind some digits range.1 range.2
      rw [whole] at spelled
      rwa [if_neg some]

variable {map piece : List Char} {i : Nat} {tiles : List TileKind} {e : LevelError}

theorem readRun_of_known {kind : TileKind} (known : piece.dropWhile isDigit = kind.token.toList) :
    readRun map i piece =
      if 1 ≤ countOf piece ∧ countOf piece ≤ boardWidth then
        .ok (List.replicate (countOf piece) kind)
      else .error (.invalidCount (String.ofList piece) i) := by
  rw [readRun, ofToken?_eq_some.2 known]
  rfl

theorem readRun_of_unknown
    (unknown : ∀ kind : TileKind, piece.dropWhile isDigit ≠ kind.token.toList) :
    readRun map i piece = .error (.unknownTile (String.ofList piece) i (String.ofList map)) := by
  rw [readRun, ofToken?_eq_none.2 unknown]

theorem readRun_eq_ok : readRun map i piece = .ok tiles ↔ SpellsRun piece tiles := by
  rw [spellsRun_iff]
  by_cases known : ∃ kind : TileKind, piece.dropWhile isDigit = kind.token.toList
  · obtain ⟨kind, known⟩ := known
    rw [readRun_of_known known]
    constructor
    · intro h
      split at h
      · cases h
        exact ⟨kind, known, ‹_›, rfl⟩
      · cases h
    · rintro ⟨kind', known', range, rfl⟩
      have same : some kind = some kind' := by
        rw [← ofToken?_eq_some.2 known, ← ofToken?_eq_some.2 known']
      cases same
      rw [if_pos range]
  · have unknown : ∀ kind : TileKind, piece.dropWhile isDigit ≠ kind.token.toList :=
      fun kind word => known ⟨kind, word⟩
    rw [readRun_of_unknown unknown]
    constructor
    · nofun
    · rintro ⟨kind, word, _⟩
      exact absurd word (unknown kind)

theorem isRun_iff (map : List Char) (i : Nat) :
    IsRun piece ↔ ∃ tiles, readRun map i piece = .ok tiles :=
  exists_congr fun _ => readRun_eq_ok.symm

theorem readRun_eq_error : readRun map i piece = .error e ↔ PieceFault map i piece e := by
  constructor
  · intro h
    have bad : ¬IsRun piece := by
      rw [isRun_iff map i, h]
      rintro ⟨_, ⟨⟩⟩
    by_cases known : ∃ kind : TileKind, piece.dropWhile isDigit = kind.token.toList
    · obtain ⟨kind, known⟩ := known
      rw [readRun_of_known known] at h
      split at h
      · cases h
      · cases h
        exact .count known bad
    · have unknown : ∀ kind : TileKind, piece.dropWhile isDigit ≠ kind.token.toList :=
        fun kind word => known ⟨kind, word⟩
      rw [readRun_of_unknown unknown] at h
      cases h
      exact .word unknown
  · intro h
    cases h with
    | word unknown => exact readRun_of_unknown unknown
    | count known bad =>
      rw [readRun_of_known known, if_neg]
      intro range
      exact bad ⟨_, spellsRun_iff.2 ⟨_, known, range, rfl⟩⟩

theorem PieceFault.not_isRun (h : PieceFault map i piece e) : ¬IsRun piece := by
  rw [isRun_iff map i, readRun_eq_error.2 h]
  rintro ⟨_, ⟨⟩⟩

/-! ## Rows -/

section
variable {α β ε : Type}

theorem mapM_eq_ok_iff {f : α → Except ε β} {as : List α} {bs : List β} :
    as.mapM f = .ok bs ↔ List.Forall₂ (fun a b => f a = .ok b) as bs := by
  induction as generalizing bs with
  | nil =>
    rw [List.mapM_nil, List.forall₂_nil_left_iff]
    exact ⟨fun h => (Except.ok.inj h).symm, fun h => congrArg _ h.symm⟩
  | cons a as ih =>
    rw [List.mapM_cons, bind_eq_ok, List.forall₂_cons_left_iff]
    constructor
    · rintro ⟨b, first, h⟩
      obtain ⟨rest, read, h⟩ := bind_eq_ok.1 h
      cases h
      exact ⟨b, rest, first, ih.1 read, rfl⟩
    · rintro ⟨b, rest, first, read, rfl⟩
      refine ⟨b, first, ?_⟩
      rw [ih.2 read]
      rfl

/-- Nothing is refused before the first item that is. -/
theorem mapM_eq_error_iff {f : α → Except ε β} {as : List α} {err : ε} :
    as.mapM f = .error err ↔ ∃ good a rest, as = good ++ a :: rest ∧
      (∀ g ∈ good, ∃ b, f g = .ok b) ∧ f a = .error err := by
  induction as with
  | nil =>
    rw [List.mapM_nil]
    constructor
    · nofun
    · rintro ⟨good, a, rest, split, _⟩
      simp at split
  | cons a as ih =>
    rw [List.mapM_cons, bind_eq_error]
    constructor
    · rintro (bad | ⟨b, first, h⟩)
      · exact ⟨[], a, as, rfl, nofun, bad⟩
      · rcases bind_eq_error.1 h with later | ⟨bs, _, ⟨⟩⟩
        obtain ⟨good, a', rest, rfl, fine, bad⟩ := ih.1 later
        exact ⟨a :: good, a', rest, rfl, List.forall_mem_cons.2 ⟨⟨b, first⟩, fine⟩, bad⟩
    · rintro ⟨good, a', rest, split, fine, bad⟩
      cases good with
      | nil =>
        cases split
        exact .inl bad
      | cons g good =>
        cases split
        obtain ⟨⟨b, first⟩, fine⟩ := List.forall_mem_cons.1 fine
        exact .inr ⟨b, first, bind_eq_error.2 (.inl (ih.2 ⟨good, a', rest, rfl, fine, bad⟩))⟩

theorem exists_forall₂_iff {R : α → β → Prop} {as : List α} :
    (∃ bs, List.Forall₂ R as bs) ↔ ∀ a ∈ as, ∃ b, R a b := by
  induction as with
  | nil => exact ⟨nofun, fun _ => ⟨[], .nil⟩⟩
  | cons a as ih =>
    rw [List.forall_mem_cons, ← ih]
    constructor
    · rintro ⟨_, h⟩
      cases h with
      | cons first rest => exact ⟨⟨_, first⟩, _, rest⟩
    · rintro ⟨⟨b, first⟩, bs, rest⟩
      exact ⟨b :: bs, .cons first rest⟩

end

theorem exists_spellsRow_iff {line : List Char} :
    (∃ row, SpellsRow line row) ↔ ∀ p ∈ piecesOf line, IsRun p := by
  unfold IsRun
  rw [← exists_forall₂_iff]
  constructor
  · rintro ⟨_, runs, spelled, _⟩
    exact ⟨runs, spelled⟩
  · rintro ⟨runs, spelled⟩
    exact ⟨runs.flatten, runs, spelled, rfl⟩

theorem readRow_eq_ok {line : List Char} {row : List TileKind} :
    readRow map i line = .ok row ↔ SpellsRow line row := by
  rw [readRow, bind_eq_ok]
  apply exists_congr
  intro runs
  rw [mapM_eq_ok_iff]
  simp only [readRun_eq_ok]
  exact and_congr_right fun _ => ⟨fun h => (Except.ok.inj h).symm, fun h => congrArg _ h.symm⟩

theorem readRow_eq_error {line : List Char} :
    readRow map i line = .error e ↔ ∃ good piece rest, piecesOf line = good ++ piece :: rest ∧
      (∀ p ∈ good, IsRun p) ∧ PieceFault map i piece e := by
  have read : readRow map i line = .error e ↔
      (piecesOf line).mapM (readRun map i) = .error e := by
    rw [readRow, bind_eq_error]
    constructor
    · rintro (h | ⟨_, _, ⟨⟩⟩)
      exact h
    · exact .inl
  simp only [read, mapM_eq_error_iff, readRun_eq_error, isRun_iff map i]

theorem readRows_eq_ok {ls : List (List Char)} {rows : List (List TileKind)} :
    readRows map i ls = .ok rows ↔ List.Forall₂ SpellsRow ls rows := by
  induction ls generalizing i rows with
  | nil =>
    rw [readRows, List.forall₂_nil_left_iff]
    exact ⟨fun h => (Except.ok.inj h).symm, fun h => congrArg _ h.symm⟩
  | cons line ls ih =>
    rw [readRows, bind_eq_ok, List.forall₂_cons_left_iff]
    constructor
    · rintro ⟨row, first, h⟩
      obtain ⟨more, rest, h⟩ := bind_eq_ok.1 h
      cases h
      exact ⟨row, more, readRow_eq_ok.1 first, ih.1 rest, rfl⟩
    · rintro ⟨row, more, first, rest, rfl⟩
      refine ⟨row, readRow_eq_ok.2 first, ?_⟩
      rw [ih.2 rest]
      rfl

/-- The line that is refused is numbered by the lines before it, which spell rows. -/
theorem readRows_eq_error {ls : List (List Char)} :
    readRows map i ls = .error e ↔ ∃ before line after, ls = before ++ line :: after ∧
      (∀ l ∈ before, ∃ row, SpellsRow l row) ∧ readRow map (i + before.length) line = .error e := by
  induction ls generalizing i with
  | nil =>
    constructor
    · intro h
      cases h
    · rintro ⟨before, line, after, split, _⟩
      simp at split
  | cons line ls ih =>
    rw [readRows, bind_eq_error]
    constructor
    · rintro (bad | ⟨row, first, h⟩)
      · exact ⟨[], line, ls, rfl, List.forall_mem_nil _, bad⟩
      · rcases bind_eq_error.1 h with later | ⟨_, _, ⟨⟩⟩
        obtain ⟨before, line', after, rfl, fine, bad⟩ := ih.1 later
        refine ⟨line :: before, line', after, rfl, ?_, ?_⟩
        · exact List.forall_mem_cons.2 ⟨⟨row, readRow_eq_ok.1 first⟩, fine⟩
        · rwa [List.length_cons, Nat.add_comm before.length, ← Nat.add_assoc]
    · rintro ⟨before, line', after, split, fine, bad⟩
      cases before with
      | nil =>
        cases split
        exact .inl bad
      | cons l before =>
        cases split
        obtain ⟨⟨row, first⟩, fine⟩ := List.forall_mem_cons.1 fine
        rw [List.length_cons, Nat.add_comm before.length, ← Nat.add_assoc] at bad
        refine .inr ⟨row, readRow_eq_ok.2 first, bind_eq_error.2 (.inl ?_)⟩
        exact ih.2 ⟨before, line', after, rfl, fine, bad⟩

/-! ## Maps -/

theorem readRows_filledLines_eq_error {body : List Char} :
    readRows map 0 (filledLines body) = .error e ↔
      ∃ row piece, FirstFault body row piece ∧ PieceFault map row piece e := by
  simp only [readRows_eq_error, readRow_eq_error, exists_spellsRow_iff, Nat.zero_add]
  constructor
  · rintro ⟨before, line, after, lines, fine, good, piece, rest, pieces, runs, fault⟩
    exact ⟨before.length, piece, ⟨before, line, after, good, rest, lines, rfl, fine, pieces, runs,
      fault.not_isRun⟩, fault⟩
  · rintro ⟨_, piece, ⟨before, line, after, good, rest, lines, rfl, fine, pieces, runs, _⟩, fault⟩
    exact ⟨before, line, after, lines, fine, good, piece, rest, pieces, runs, fault⟩

/-- A text is read as the map whose rows its lines spell, and refused for its first fault. -/
theorem maps_read_by_grammar (body : List Char) :
    (∀ m, readMap body = .ok m ↔ m.Proper ∧ SpellsRows body m.rows) ∧
    ∀ e, readMap body = .error e ↔ MapFault body e := by
  have lines : rowLines (trim body) = filledLines body := by
    rw [rowLines_eq, filledLines_trim]
  constructor
  · intro m
    simp only [readMap, lines, bind_eq_ok, readRows_eq_ok, TileMap.ofRows_eq_ok]
    constructor
    · rintro ⟨_, spelled, proper, rfl⟩
      exact ⟨proper, spelled⟩
    · rintro ⟨proper, spelled⟩
      exact ⟨m.rows, spelled, proper, rfl⟩
  · intro e
    simp only [readMap, lines, bind_eq_error, readRows_filledLines_eq_error, readRows_eq_ok,
      TileMap.ofRows_eq_error]
    constructor
    · rintro (⟨row, piece, first, fault⟩ | ⟨rows, spelled, shape⟩)
      · exact .piece first fault
      · exact .shape spelled shape
    · intro h
      cases h with
      | piece first fault => exact .inl ⟨_, _, first, fault⟩
      | shape spelled shape => exact .inr ⟨_, spelled, shape⟩

end IceMaze.LevelText
