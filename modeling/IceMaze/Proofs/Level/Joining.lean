import IceMaze.Proofs.Level.Filler
import IceMaze.Proofs.Level.RoundTrip
import Mathlib.Data.List.Forall2

/-!
Files of levels that are joined by a separator line.

The text before the separator is put together from other lines than when it stands alone: its last
line is closed by a newline now, before which a carriage return is dropped. No chunk is read
differently for that (`readChunks_closed`), so the files are read one after the other
(`readLevels_joined`), and the levels of the second are numbered from where the first one ends
(`joined_files`).
-/

namespace IceMaze

namespace LevelText

open Text Piece

/-! ## Chunks -/

/-- The texts between the separators, blank ones among them. -/
def texts (ls : List (List Char)) : List (List Char) := (splitWhere isSeparator ls).map joinLines

def filled (ts : List (List Char)) : List (List Char) := ts.filter fun t => ¬Blank t

theorem chunks_eq (s : List Char) : chunks s = filled (texts (lines s)) := by
  unfold chunks filled texts
  simp only [ne_eq, trim_eq_nil_iff]
  rfl

theorem joinLines_append (ls ms : List (List Char)) :
    joinLines (ls ++ ms) = joinLines ls ++ joinLines ms := List.flatMap_append

theorem joinLines_singleton (line : List Char) : joinLines [line] = line ++ ['\n'] := by
  simp [joinLines]

/-- Texts that hold the same pieces and are blank together. -/
structure SameChunk (s t : List Char) : Prop where
  pieces : scan s = scan t
  blank : Blank s ↔ Blank t

theorem SameChunk.refl (s : List Char) : SameChunk s s := ⟨rfl, Iff.rfl⟩

theorem SameChunk.symm {s t : List Char} (h : SameChunk s t) : SameChunk t s :=
  ⟨h.pieces.symm, h.blank.symm⟩

theorem SameChunk.trans {s t u : List Char} (h : SameChunk s t) (h' : SameChunk t u) :
    SameChunk s u := ⟨h.pieces.trans h'.pieces, h.blank.trans h'.blank⟩

theorem sameChunk_append_blank {b : List Char} (h : Blank b) (s : List Char) :
    SameChunk (s ++ b) s := by
  refine ⟨scan_append_blank h s, ?_⟩
  rw [← trim_eq_nil_iff, ← trim_eq_nil_iff, trim_append_blank h]

theorem sameChunk_last {s t : List Char} (h : SameChunk s t) (ps : List (List Char)) :
    List.Forall₂ SameChunk (ps ++ [s]) (ps ++ [t]) := by
  induction ps with
  | nil => exact .cons h .nil
  | cons p ps ih => exact .cons (.refl p) ih

theorem readChunks_congr {ss ts : List (List Char)} (h : List.Forall₂ SameChunk ss ts) (n : Nat) :
    readChunks n (filled ss) = readChunks n (filled ts) := by
  induction h generalizing n with
  | nil => rfl
  | @cons s t ss ts first rest ih =>
    have level : readLevel s = readLevel t := by rw [readLevel, readLevel, first.pieces]
    unfold filled at ih ⊢
    simp only [List.filter_cons, first.blank]
    split
    · rw [readChunks, readChunks, level, ih]
    · exact ih n

/-- The last line of a text is read in the same way if a newline is put behind it. -/
theorem readChunks_closed (s : List Char) (n : Nat) :
    readChunks n (filled (texts ((splitAt '\n' s).map dropReturn))) = readChunks n (chunks s) := by
  obtain ⟨closed, last, pieces, closed_lines⟩ := exists_pieces s
  rw [chunks_eq, closed_lines, pieces, List.map_append, List.map_singleton]
  obtain ⟨parts, part, split, joined⟩ := splitWhere_concat isSeparator (closed.map dropReturn)
  obtain ⟨tail, blank, ended⟩ := dropReturn_append_blank last
  have newline : Blank ['\n'] := by decide
  have same : isSeparator (dropReturn last) = isSeparator last := by
    rw [isSeparator, isSeparator, trim_dropReturn]
  apply readChunks_congr
  by_cases none : last = []
  · subst none
    have dropped : [([] : List Char)].filter (· ≠ []) = [] := rfl
    rw [dropped, List.append_nil, texts, texts, split,
      joined _ (by decide), List.map_append, List.map_append, List.map_singleton,
      List.map_singleton, joinLines_append, joinLines_singleton]
    apply sameChunk_last
    exact sameChunk_append_blank newline _
  · have kept : [last].filter (· ≠ []) = [last] := List.filter_eq_self.2 (by simpa using none)
    rw [kept]
    by_cases mark : isSeparator last = true
    · rw [texts, texts, splitWhere_append mark, splitWhere_append (same.trans mark)]
      exact List.forall₂_same.2 fun t _ => .refl t
    · have plain := Bool.eq_false_iff.2 mark
      rw [texts, texts, joined _ plain, joined _ (same.trans plain), List.map_append,
        List.map_append, List.map_singleton, List.map_singleton, joinLines_append,
        joinLines_append, joinLines_singleton, joinLines_singleton]
      apply sameChunk_last
      have open_end := sameChunk_append_blank newline (joinLines part ++ dropReturn last)
      have closed_end := sameChunk_append_blank (blank.append newline)
        (joinLines part ++ dropReturn last)
      rw [List.append_assoc] at open_end closed_end
      rw [← List.append_assoc (dropReturn last), ← ended] at closed_end
      exact open_end.trans closed_end.symm

/-! ## Numbers -/

theorem length_of_readChunks {cs : List (List Char)} {n : Nat} {ls : List Level}
    (h : readChunks n cs = .ok ls) : ls.length = cs.length := by
  induction cs generalizing n ls with
  | nil =>
    cases h
    rfl
  | cons c cs ih =>
    obtain ⟨l, _, h⟩ := bind_eq_ok.1 h
    obtain ⟨rest, read, h⟩ := bind_eq_ok.1 h
    cases h
    rw [List.length_cons, List.length_cons, ih read]

/-- Levels are read alike under any number, which is told only if one of them is refused. -/
theorem readChunks_renumber (cs : List (List Char)) (n k : Nat) :
    (∀ ls, readChunks n cs = .ok ls → readChunks (k + n) cs = .ok ls) ∧
    ∀ e, readChunks n cs = .error e → ∃ m cause, e = .inLevel m cause ∧
      readChunks (k + n) cs = .error (.inLevel (k + m) cause) := by
  induction cs generalizing n with
  | nil => exact ⟨fun _ h => h, nofun⟩
  | cons c cs ih =>
    obtain ⟨accepted, refused⟩ := ih (n + 1)
    constructor
    · intro ls h
      obtain ⟨l, level, h⟩ := bind_eq_ok.1 h
      obtain ⟨rest, read, h⟩ := bind_eq_ok.1 h
      rw [mapError_eq_ok] at level
      rw [readChunks, level, mapError_ok, ok_bind, Nat.add_assoc, accepted rest read]
      exact h
    · intro e h
      cases level : readLevel c with
      | error cause =>
        rw [readChunks, level] at h
        cases h
        refine ⟨n, cause, rfl, ?_⟩
        rw [readChunks, level]
        rfl
      | ok l =>
        rw [readChunks, level, mapError_ok, ok_bind, bind_eq_error] at h
        rcases h with h | ⟨_, _, ⟨⟩⟩
        obtain ⟨m, cause, told, h⟩ := refused e h
        refine ⟨m, cause, told, ?_⟩
        rw [readChunks, level, mapError_ok, ok_bind, Nat.add_assoc, h]
        rfl

/-- The chunks of a joined text are those of its parts. -/
theorem readLevels_joined (s t : List Char) :
    readLevels (s ++ '\n' :: separator ++ t) = (do
      let la ← readLevels s
      let lb ← readChunks (la.length + 1) (chunks t)
      return la ++ lb) := by
  have mark : isSeparator ['-', '-', '-'] = true := by decide
  have split : lines (s ++ '\n' :: separator ++ t) =
      (splitAt '\n' s).map dropReturn ++ ['-', '-', '-'] :: lines t := by
    have text : s ++ '\n' :: separator ++ t = s ++ '\n' :: (['-', '-', '-'] ++ '\n' :: t) := by
      simp [separator]
    rw [text, lines_append, lines_append]
    rfl
  have whole : chunks (s ++ '\n' :: separator ++ t) =
      filled (texts ((splitAt '\n' s).map dropReturn)) ++ chunks t := by
    rw [chunks_eq, chunks_eq, split, texts, splitWhere_append mark, List.map_append, filled,
      List.filter_append]
    rfl
  rw [readLevels, readLevels, whole, readChunks_append_bind, ← readChunks_closed s]
  cases read : readChunks 1 (filled (texts ((splitAt '\n' s).map dropReturn))) with
  | error e => rfl
  | ok la => rw [ok_bind, ok_bind, length_of_readChunks read, Nat.add_comm]

/-! ## Undivided texts -/

/-- No line of the text separates levels. -/
def Undivided (s : List Char) : Prop := ∀ line ∈ splitAt '\n' s, isSeparator line = false

instance (s : List Char) : Decidable (Undivided s) :=
  inferInstanceAs (Decidable (∀ line ∈ splitAt '\n' s, isSeparator line = false))

theorem chunks_of_undivided {s : List Char} (h : Undivided s) :
    chunks s = filled [joinLines (lines s)] := by
  obtain ⟨closed, last, pieces, closed_lines⟩ := exists_pieces s
  rw [Undivided, pieces, List.forall_mem_append] at h
  have plain : ∀ line ∈ lines s, isSeparator line = false := by
    rw [closed_lines, List.forall_mem_append, List.forall_mem_map]
    constructor
    · intro piece hp
      rw [isSeparator, trim_dropReturn]
      exact h.1 piece hp
    · intro line hl
      exact h.2 line (List.mem_of_mem_filter hl)
  rw [chunks_eq, texts, splitWhere_of_forall plain, List.map_singleton]

/-- Cutting a text into lines leaves out nothing but blanks. -/
theorem blank_joinLines {s : List Char} : Blank (joinLines (lines s)) ↔ Blank s := by
  have all : Blank (joinLines (lines s)) ↔ ∀ line ∈ lines s, Blank line := by
    constructor
    · intro h line hl c hc
      exact h c (List.mem_flatMap.2 ⟨line, hl, List.mem_append_left _ hc⟩)
    · intro h c hc
      obtain ⟨line, hl, hc⟩ := List.mem_flatMap.1 hc
      rcases List.mem_append.1 hc with hc | hc
      · exact h line hl c hc
      · rw [List.mem_singleton.1 hc]
        decide
  obtain ⟨closed, last, pieces, closed_lines⟩ := exists_pieces s
  have last_line : (∀ line ∈ [last].filter (· ≠ []), Blank line) ↔ Blank last := by
    by_cases none : last = []
    · subst none
      exact ⟨fun _ => Blank.nil, fun _ => nofun⟩
    · simp [none]
  rw [all, blank_iff_pieces, closed_lines, pieces, List.forall_mem_append, List.forall_mem_append,
    List.forall_mem_map, List.forall_mem_singleton, last_line]
  simp only [blank_dropReturn]

/-- A text without separators holds one level, or none if it is blank. -/
theorem length_of_undivided {s : List Char} (h : Undivided s) {ls : List Level}
    (read : readLevels s = .ok ls) : ls.length = if Blank s then 0 else 1 := by
  rw [length_of_readChunks read, chunks_of_undivided h, filled, List.filter_singleton]
  simp only [blank_joinLines]
  by_cases blank : Blank s
  · simp [blank]
  · simp [blank]

end LevelText

namespace Level

open LevelText

theorem listOfText_joined (a b : String) :
    listOfText (a ++ "\n---\n" ++ b) = (do
      let la ← listOfText a
      let lb ← readChunks (la.length + 1) (chunks b.toList)
      return la ++ lb) := by
  rw [listOfText, String.toList_append, String.toList_append]
  exact readLevels_joined a.toList b.toList

/-- A refusal of the second file counts on from the levels of the first one. -/
theorem listOfText_joined_of_refused {a b : String} {ls : List Level}
    (read : listOfText a = .ok ls) {k : Nat} {cause : LevelError}
    (refused : listOfText b = .error (.inLevel k cause)) :
    listOfText (a ++ "\n---\n" ++ b) = .error (.inLevel (ls.length + k) cause) := by
  obtain ⟨m, cause', told, later⟩ := (readChunks_renumber _ 1 ls.length).2 _ refused
  cases told
  rw [listOfText_joined, read, ok_bind, later]
  rfl

end Level

open LevelText

/-- Files joined by separator lines are read one after the other. The first that is refused decides,
and the number of the level in its error counts the levels of the files before it: one for each
undivided text that is not blank. -/
theorem joined_files (a b : String) :
    (∀ e, Level.listOfText a = .error e → Level.listOfText (a ++ "\n---\n" ++ b) = .error e) ∧
    (∀ la, Level.listOfText a = .ok la →
      (∀ lb, Level.listOfText b = .ok lb →
        Level.listOfText (a ++ "\n---\n" ++ b) = .ok (la ++ lb)) ∧
      ∀ e, Level.listOfText b = .error e → ∃ k cause, e = .inLevel k cause ∧
        Level.listOfText (a ++ "\n---\n" ++ b) = .error (.inLevel (la.length + k) cause)) ∧
    ∀ files : List String,
      (∀ f ∈ files, Undivided f.toList ∧ ∃ ls, Level.listOfText f = .ok ls) →
      ∀ k cause, Level.listOfText b = .error (.inLevel k cause) →
        Level.listOfText (files.foldr (fun f rest => f ++ "\n---\n" ++ rest) b) =
          .error (.inLevel (files.countP (fun f => ¬Text.Blank f.toList) + k) cause) := by
  refine ⟨?_, ?_, ?_⟩
  · intro e refused
    rw [Level.listOfText_joined, refused]
    rfl
  · intro la read
    constructor
    · intro lb more
      rw [Level.listOfText_joined, read, ok_bind, (readChunks_renumber _ 1 la.length).1 lb more]
      rfl
    · intro e refused
      obtain ⟨k, cause, rfl, _⟩ := (readChunks_renumber _ 1 la.length).2 e refused
      exact ⟨k, cause, rfl, Level.listOfText_joined_of_refused read refused⟩
  · intro files h k cause refused
    induction files with
    | nil =>
      rw [List.foldr_nil, List.countP_nil, Nat.zero_add]
      exact refused
    | cons f files ih =>
      rw [List.forall_mem_cons] at h
      obtain ⟨⟨undivided, ls, read⟩, rest⟩ := h
      have count : ls.length = if Text.Blank f.toList then 0 else 1 :=
        length_of_undivided undivided read
      have total : ls.length + (files.countP (fun f => ¬Text.Blank f.toList) + k) =
          (f :: files).countP (fun f => ¬Text.Blank f.toList) + k := by
        rw [count, List.countP_cons]
        by_cases blank : Text.Blank f.toList
        · simp [blank]
        · simp [blank]
          omega
      rw [List.foldr_cons, Level.listOfText_joined_of_refused read (ih rest), total]

/-- Two files with a level each and a blank one stand before a level with an unknown tile. It is the
third level, for the blank file is not counted. -/
theorem joined_files_before_mud :
    Level.listOfText "map\n2ice;\npuffle(0,0)" = .ok [keyed []] ∧
    Level.listOfText "map\nmud;" = .error (.inLevel 1 (.unknownTile "mud" 0 "mud")) ∧
    Level.listOfText "map\n2ice;\npuffle(0,0)\n---\nmap\n2ice;\npuffle(0,0)\r" =
      .ok [keyed [], keyed []] ∧
    Level.listOfText "map\nmud;\n---\nmap\n2ice;\npuffle(0,0)" =
      .error (.inLevel 1 (.unknownTile "mud" 0 "mud")) ∧
    Level.listOfText
        "map\n2ice;\npuffle(0,0)\n---\n \t\n\r\n---\nmap\n2ice;\npuffle(0,0)\r\n---\nmap\nmud;" =
      .error (.inLevel 3 (.unknownTile "mud" 0 "mud")) := by
  have floe : Level.listOfText "map\n2ice;\npuffle(0,0)" = .ok [keyed []] := by decide +kernel
  have returned : Level.listOfText "map\n2ice;\npuffle(0,0)\r" = .ok [keyed []] := by
    decide +kernel
  have blank : Level.listOfText " \t\n\r" = .ok [] := by decide +kernel
  have mud : Level.listOfText "map\nmud;" =
      .error (.inLevel 1 (.unknownTile "mud" 0 "mud")) := by decide +kernel
  obtain ⟨_, accepted, _⟩ := joined_files "map\n2ice;\npuffle(0,0)" "map\n2ice;\npuffle(0,0)\r"
  obtain ⟨refused, _⟩ := joined_files "map\nmud;" "map\n2ice;\npuffle(0,0)"
  obtain ⟨_, _, counted⟩ := joined_files "" "map\nmud;"
  have undivided : ∀ f ∈ ["map\n2ice;\npuffle(0,0)", " \t\n\r", "map\n2ice;\npuffle(0,0)\r"],
      Undivided f.toList ∧ ∃ ls, Level.listOfText f = .ok ls := by
    simp only [List.forall_mem_cons]
    exact ⟨⟨by decide +kernel, _, floe⟩, ⟨by decide +kernel, _, blank⟩,
      ⟨by decide +kernel, _, returned⟩, nofun⟩
  have third := counted _ undivided 1 _ mud
  exact ⟨floe, mud, (accepted _ floe).1 _ returned, refused _ mud, third⟩

end IceMaze
