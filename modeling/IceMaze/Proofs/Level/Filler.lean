import IceMaze.Proofs.Level.PieceText

/-!
What the scanner of level texts passes over.

Blanks behind a text make no difference, whatever the text ends with (`scan_append_blank`): a
directive is trimmed, a comment is dropped, and a map that no `;` ends stays so. Between pieces
there may be white space and whole lines of comment (`Filler.scan`).
-/

namespace IceMaze.LevelText

open Text Piece

/-! ## Blanks -/

theorem scan_of_blank {s : List Char} (h : Blank s) : scan s = [] := by
  rw [scan_eq, trimStart_eq_nil_iff.2 h]

theorem head_of_blank {b : List Char} (h : Blank b) : ∀ c ∈ b.head?, isLetter c = false := by
  intro c hc
  by_contra letter
  have printed := isBlank_of_isLetter (eq_true_of_ne_false letter)
  rw [h c (List.mem_of_mem_head? hc)] at printed
  cases printed

theorem name_append_blank {b : List Char} (h : Blank b) (s : List Char) :
    nameOf (s ++ b) = nameOf s ∧ afterName (s ++ b) = afterName s ++ b := by
  induction s with
  | nil => exact takeWhile_dropWhile_append (s := []) nofun (head_of_blank h)
  | cons c s ih =>
    unfold nameOf afterName at ih ⊢
    by_cases letter : isLetter c = true
    · simp only [List.cons_append, List.takeWhile_cons_of_pos letter,
        List.dropWhile_cons_of_pos letter, ih.1, ih.2, and_self]
    · simp only [List.cons_append, List.takeWhile_cons_of_neg letter,
        List.dropWhile_cons_of_neg letter, and_self]

/-- Blanks behind the last piece are dropped, even where no newline has ended it. -/
theorem scan_append_blank {b : List Char} (h : Blank b) (s : List Char) :
    scan (s ++ b) = scan s := by
  have start {s : List Char} {c : Char} {rest : List Char} (first : trimStart s = c :: rest) :
      trimStart (s ++ b) = c :: (rest ++ b) := by
    rw [trimStart_append, first, List.cons_append]
    rw [← trimStart_eq_nil_iff, first]
    nofun
  have name (c : Char) (rest : List Char) := name_append_blank h (c :: rest)
  induction s using scan.induct with
  | case1 s none =>
    have blank := trimStart_eq_nil_iff.1 none
    rw [scan_of_blank blank, scan_of_blank (blank.append h)]
  | case2 s rest first ih =>
    rw [scan_eq s, scan_eq (s ++ b), first, start first]
    dsimp only
    rw [if_pos rfl, if_pos rfl]
    by_cases ended : '\n' ∈ rest
    · rw [after_append_of_mem ended, ih]
    · rw [after_of_not_mem ended, after_append_of_not_mem ended, scan_of_blank (h.after _),
        scan_nil]
  | case3 s c rest first uncommented map body tail cut ih =>
    have cut' : cut? ';' (afterName (c :: rest) ++ b) = some (body, tail ++ b) := by
      obtain ⟨split, plain⟩ := cut?_eq_some.1 cut
      apply cut?_eq_some.2
      rw [split, List.append_assoc, List.cons_append]
      exact ⟨rfl, plain⟩
    rw [scan_eq s, scan_eq (s ++ b), first, start first]
    simp only [uncommented, if_false, ← List.cons_append, name, map, if_true, cut, cut', ih]
  | case4 s c rest first uncommented map none =>
    have none' : cut? ';' (afterName (c :: rest) ++ b) = Option.none := by
      rw [cut?_eq_none] at none ⊢
      rw [List.mem_append, not_or]
      exact ⟨none, h.not_mem (by decide)⟩
    rw [scan_eq s, scan_eq (s ++ b), first, start first]
    simp only [uncommented, if_false, ← List.cons_append, name, map, if_true, none, none']
  | case5 s c rest first uncommented unmapped alt ih =>
    rw [scan_eq s, scan_eq (s ++ b), first, start first]
    dsimp only
    rw [← List.cons_append, (name c rest).1, (name c rest).2]
    simp only [if_neg uncommented, if_neg unmapped, if_pos alt, ih]
  | case6 s c rest first uncommented unmapped base ih =>
    rw [scan_eq s, scan_eq (s ++ b), first, start first]
    simp only [uncommented, unmapped, base, if_false, ← List.cons_append, name]
    by_cases ended : '\n' ∈ c :: rest
    · rw [before_append_of_mem ended, after_append_of_mem ended, ih]
    · rw [before_of_not_mem ended, before_append_of_not_mem ended,
        trim_append_blank (h.before _), after_of_not_mem ended, after_append_of_not_mem ended,
        scan_of_blank (h.after _), scan_nil]

/-! ## Comments -/

/-- White space and comments, each of which ends with its line. -/
inductive Filler : List Char → Prop where
  | nil : Filler []
  | blank {c s} (h : isBlank c = true) (rest : Filler s) : Filler (c :: s)
  | comment {words s} (line : '\n' ∉ words) (rest : Filler s) :
      Filler ('#' :: words ++ '\n' :: s)

theorem Filler.of_blank {s : List Char} (h : Blank s) : Filler s := by
  induction s with
  | nil => exact .nil
  | cons c s ih =>
    rw [Blank, List.forall_mem_cons] at h
    exact .blank h.1 (ih h.2)

/-- Filler behind the last section; nothing has to end its last comment. -/
inductive LastFiller : List Char → Prop where
  | ended {s} (h : Filler s) : LastFiller s
  | comment {s words} (h : Filler s) (line : '\n' ∉ words) : LastFiller (s ++ '#' :: words)

theorem scan_comment (rest : List Char) : scan ('#' :: rest) = scan (after '\n' rest) := by
  have start : trimStart ('#' :: rest) = '#' :: rest :=
    trimStart_of_head (by rintro c ⟨⟩; decide)
  rw [scan_eq, start]
  rfl

theorem Filler.scan {f : List Char} (h : Filler f) (s : List Char) :
    Piece.scan (f ++ s) = Piece.scan s := by
  induction h with
  | nil => rfl
  | blank h rest ih => rw [List.cons_append, scan_eq, trimStart_blank h, ← scan_eq, ih]
  | @comment words f line rest ih =>
    have text : '#' :: words ++ '\n' :: f ++ s = '#' :: (words ++ '\n' :: (f ++ s)) := by simp
    rw [text, scan_comment, after_append line, ih]

theorem LastFiller.scan {s : List Char} (h : LastFiller s) : Piece.scan s = [] := by
  cases h with
  | ended h =>
    have all := h.scan []
    rw [List.append_nil] at all
    rw [all, scan_nil]
  | comment h line =>
    rw [h.scan, scan_comment, after_of_not_mem line, scan_nil]

end IceMaze.LevelText
