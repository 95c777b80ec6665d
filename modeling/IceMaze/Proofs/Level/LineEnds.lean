import IceMaze.Proofs.Level.Filler
import IceMaze.Proofs.Level.MapGrammar

/-!
Level texts with carriage returns before their newlines.

Lines end alike with and without them, so the file of levels is the same text once it is cut into
lines (`lines_withReturns`). A single level is scanned as it stands: the pieces have the carriage
returns in the bodies of maps only (`scan_withReturns`), whose rows are trimmed. What is left of them
is the map that is quoted where a tile is unknown (`readLevel_withReturns`).
-/

namespace IceMaze

namespace Text

/-- The text with a carriage return put before every newline. -/
def withReturns (s : List Char) : List Char :=
  s.flatMap fun c => if c = '\n' then ['\r', '\n'] else [c]

theorem withReturns_append (s t : List Char) :
    withReturns (s ++ t) = withReturns s ++ withReturns t := List.flatMap_append

theorem withReturns_newline (s : List Char) :
    withReturns ('\n' :: s) = '\r' :: '\n' :: withReturns s := rfl

theorem withReturns_cons {c : Char} (h : c ≠ '\n') (s : List Char) :
    withReturns (c :: s) = c :: withReturns s := by
  rw [withReturns, List.flatMap_cons, if_neg h]
  rfl

theorem withReturns_of_not_mem {s : List Char} (h : '\n' ∉ s) : withReturns s = s := by
  induction s with
  | nil => rfl
  | cons c s ih =>
    rw [List.mem_cons, not_or] at h
    rw [withReturns_cons (Ne.symm h.1), ih h.2]

theorem mem_withReturns {c : Char} (h : c ≠ '\r') {s : List Char} : c ∈ withReturns s ↔ c ∈ s := by
  induction s with
  | nil => rfl
  | cons d s ih =>
    by_cases newline : d = '\n'
    · subst newline
      rw [withReturns_newline, List.mem_cons, List.mem_cons, List.mem_cons, ih]
      simp only [h, false_or]
    · rw [withReturns_cons newline, List.mem_cons, List.mem_cons, ih]

/-! ## Trimming and cutting -/

section
variable {p : Char → Bool}

theorem dropWhile_withReturns (same : p '\r' = p '\n') (s : List Char) :
    (withReturns s).dropWhile p = withReturns (s.dropWhile p) := by
  induction s with
  | nil => rfl
  | cons c s ih =>
    by_cases newline : c = '\n'
    · subst newline
      rw [withReturns_newline]
      cases dropped : p '\n' with
      | true => simp only [List.dropWhile_cons, same, dropped, if_true, ih]
      | false => simp [same, dropped, withReturns_newline]
    · rw [withReturns_cons newline]
      cases dropped : p c with
      | true => simp only [List.dropWhile_cons, dropped, if_true, ih]
      | false => simp [dropped, withReturns_cons newline]

theorem takeWhile_withReturns (stop : p '\r' = false ∧ p '\n' = false) (s : List Char) :
    (withReturns s).takeWhile p = s.takeWhile p := by
  induction s with
  | nil => rfl
  | cons c s ih =>
    by_cases newline : c = '\n'
    · subst newline
      simp only [withReturns_newline, List.takeWhile_cons, stop, Bool.false_eq_true, if_false]
    · rw [withReturns_cons newline, List.takeWhile_cons, List.takeWhile_cons, ih]

end

theorem trimStart_withReturns (s : List Char) :
    trimStart (withReturns s) = withReturns (trimStart s) :=
  dropWhile_withReturns (by decide) s

theorem blank_withReturns {s : List Char} : Blank (withReturns s) ↔ Blank s := by
  rw [← trimStart_eq_nil_iff, ← trimStart_eq_nil_iff, trimStart_withReturns]
  constructor
  · intro h
    cases rest : trimStart s with
    | nil => rfl
    | cons c t =>
      rw [rest, withReturns, List.flatMap_cons, List.append_eq_nil_iff] at h
      split at h <;> simp at h
  · intro h
    rw [h]
    rfl

theorem trimEnd_withReturns (s : List Char) : trimEnd (withReturns s) = withReturns (trimEnd s) := by
  induction s using List.reverseRecOn with
  | nil => rfl
  | append_singleton s c ih =>
    rw [withReturns_append]
    cases blank : isBlank c with
    | true =>
      have last : Blank [c] := by simpa [Blank] using blank
      rw [trimEnd_append_blank last, trimEnd_append_blank (blank_withReturns.2 last), ih]
    | false =>
      have printed : c ≠ '\n' := by
        rintro rfl
        cases blank
      rw [trimEnd_concat blank, withReturns_append, withReturns_cons printed]
      exact trimEnd_concat blank _

theorem trim_withReturns (s : List Char) : trim (withReturns s) = withReturns (trim s) := by
  rw [trim, trimStart_withReturns, trimEnd_withReturns, trim]

theorem cut?_withReturns {c : Char} (h : c ≠ '\r' ∧ c ≠ '\n') (s : List Char) :
    cut? c (withReturns s) = (cut? c s).map fun p => (withReturns p.1, withReturns p.2) := by
  by_cases hc : c ∈ s
  · obtain ⟨a, b, rfl, ha⟩ := List.eq_append_cons_of_mem hc
    have ha' : c ∉ withReturns a := mt (mem_withReturns h.1).1 ha
    rw [cut?_eq_some.2 ⟨rfl, ha⟩, withReturns_append, withReturns_cons h.2,
      cut?_eq_some.2 ⟨rfl, ha'⟩]
    rfl
  · rw [cut?_eq_none.2 hc, cut?_eq_none.2 (mt (mem_withReturns h.1).1 hc)]
    rfl

theorem withReturns_line {s : List Char} (h : '\n' ∉ s) (t : List Char) :
    withReturns (s ++ '\n' :: t) = s ++ ['\r'] ++ '\n' :: withReturns t := by
  rw [withReturns_append, withReturns_of_not_mem h, withReturns_newline, List.append_assoc]
  rfl

theorem not_mem_concat_return {s : List Char} (h : '\n' ∉ s) : '\n' ∉ s ++ ['\r'] := by
  simp [h]

theorem after_withReturns (s : List Char) :
    after '\n' (withReturns s) = withReturns (after '\n' s) := by
  cases s using piecewise '\n' with
  | last s h => rw [withReturns_of_not_mem h, after_of_not_mem h, withReturns, List.flatMap_nil]
  | first s t h _ =>
    rw [withReturns_line h, after_append (not_mem_concat_return h), after_append h]

theorem trim_before_withReturns (s : List Char) :
    trim (before '\n' (withReturns s)) = trim (before '\n' s) := by
  cases s using piecewise '\n' with
  | last s h => rw [withReturns_of_not_mem h]
  | first s t h _ =>
    have blank : Blank ['\r'] := by decide
    rw [withReturns_line h, before_append (not_mem_concat_return h), before_append h,
      trim_append_blank blank]

/-- The carriage returns end the lines together with the newlines. -/
theorem lines_withReturns {s : List Char} (plain : '\r' ∉ s) : lines (withReturns s) = lines s := by
  induction s using piecewise '\n' with
  | last s h => rw [withReturns_of_not_mem h]
  | first s t h ih =>
    rw [List.mem_append, List.mem_cons, not_or, not_or] at plain
    have dropped : dropReturn (s ++ ['\r']) = s := by
      rw [dropReturn, List.getLast?_concat, if_pos rfl, List.dropLast_concat]
    rw [withReturns_line h, lines_append, lines_append, splitAt_of_not_mem h,
      splitAt_of_not_mem (not_mem_concat_return h), List.map_singleton, List.map_singleton, dropped,
      dropReturn_of_not_mem plain.1, ih plain.2.2]

end Text

/-- The error of a text with carriage returns: the same, but for the map that it quotes. -/
def LevelError.withReturns : LevelError → LevelError
  | .unknownTile token row map =>
    .unknownTile token row (String.ofList (Text.withReturns map.toList))
  | .inPatch n cause => .inPatch n cause.withReturns
  | .inLevel n cause => .inLevel n cause.withReturns
  | e => e

namespace LevelText

open Text Piece

/-! ## Pieces -/

def Piece.withReturns : Piece → Piece
  | .map body => .map (Text.withReturns body)
  | p => p

theorem nameOf_withReturns (s : List Char) : nameOf (withReturns s) = nameOf s :=
  takeWhile_withReturns (by decide) s

theorem afterName_withReturns (s : List Char) :
    afterName (withReturns s) = withReturns (afterName s) :=
  dropWhile_withReturns (by decide) s

/-- A directive is trimmed and a comment dropped, so the carriage returns are seen in maps only. -/
theorem scan_withReturns (s : List Char) :
    scan (withReturns s) = (scan s).map Piece.withReturns := by
  have start {s : List Char} {c : Char} {rest : List Char} (first : trimStart s = c :: rest) :
      withReturns (c :: rest) = c :: withReturns rest ∧
        trimStart (withReturns s) = c :: withReturns rest := by
    have printed : c ≠ '\n' := by
      rintro rfl
      have head := List.head?_dropWhile_not isBlank s
      rw [← trimStart, first] at head
      cases (head : isBlank '\n' = false)
    rw [trimStart_withReturns, first, withReturns_cons printed]
    exact ⟨rfl, rfl⟩
  induction s using scan.induct with
  | case1 s none =>
    have blank := trimStart_eq_nil_iff.1 none
    rw [scan_of_blank blank, scan_of_blank (blank_withReturns.2 blank), List.map_nil]
  | case2 s rest first ih =>
    rw [scan_eq s, scan_eq (withReturns s), first, (start first).2]
    dsimp only
    rw [if_pos rfl, if_pos rfl, after_withReturns, ih]
  | case3 s c rest first uncommented map body tail cut ih =>
    obtain ⟨whole, first'⟩ := start first
    have cut' : cut? ';' (withReturns (afterName (c :: rest))) =
        some (withReturns body, withReturns tail) := by
      rw [cut?_withReturns (by decide), cut, Option.map_some]
    rw [scan_eq s, scan_eq (withReturns s), first, first']
    simp only [uncommented, if_false, ← whole, nameOf_withReturns, afterName_withReturns, map,
      if_true, cut, cut', ih, List.map_cons, Piece.withReturns]
  | case4 s c rest first uncommented map none =>
    obtain ⟨whole, first'⟩ := start first
    have none' : cut? ';' (withReturns (afterName (c :: rest))) = Option.none := by
      rw [cut?_withReturns (by decide), none, Option.map_none]
    rw [scan_eq s, scan_eq (withReturns s), first, first']
    simp only [uncommented, if_false, ← whole, nameOf_withReturns, afterName_withReturns, map,
      if_true, none, none', List.map_cons, List.map_nil, Piece.withReturns]
  | case5 s c rest first uncommented unmapped alt ih =>
    obtain ⟨whole, first'⟩ := start first
    rw [scan_eq s, scan_eq (withReturns s), first, first']
    dsimp only
    rw [← whole, nameOf_withReturns, afterName_withReturns, if_neg uncommented, if_neg unmapped,
      if_pos alt, if_neg uncommented, if_neg unmapped, if_pos alt, ih, List.map_cons]
    rfl
  | case6 s c rest first uncommented unmapped base ih =>
    obtain ⟨whole, first'⟩ := start first
    rw [scan_eq s, scan_eq (withReturns s), first, first']
    simp only [uncommented, unmapped, base, if_false, ← whole, nameOf_withReturns,
      trim_before_withReturns, after_withReturns, ih, List.map_cons, Piece.withReturns]

/-! ## Errors that quote no map -/

/-- The result is the same for a text with carriage returns. -/
def Steady {α : Type} (x : Except LevelError α) : Prop := x.mapError LevelError.withReturns = x

section
variable {α β : Type} {x : Except LevelError α}

theorem Steady.ok (a : α) : Steady (.ok a) := rfl

theorem Steady.bind {f : α → Except LevelError β} (h : Steady x) (hf : ∀ a, Steady (f a)) :
    Steady (x >>= f) := by
  rw [Steady, mapError_bind, h]
  exact congrArg (x >>= ·) (funext hf)

theorem Steady.inPatch (h : Steady x) (n : Nat) : Steady (x.mapError (.inPatch n)) := by
  cases x with
  | ok a => exact .ok a
  | error e =>
    have same : e.withReturns = e := Except.error.inj h
    rw [mapError_error, Steady, mapError_error, LevelError.withReturns, same]

end

theorem steady_readCells (name args : List Char) : Steady (readCells name args) := by
  unfold readCells
  split <;> rfl

theorem steady_readDirective (line : List Char) : Steady (readDirective line) := by
  unfold readDirective
  dsimp only
  split
  · rfl
  · exact (steady_readCells _ _).bind fun _ => .ok _

theorem steady_fillCell (part : Section) (slot : Option Coord) (line : List Char)
    (cells : List Coord) : Steady (fillCell part slot line cells) := by
  unfold fillCell
  split
  · rfl
  · split <;> rfl

theorem steady_fillCells (part : Section) (slot cells : List Coord) :
    Steady (fillCells part slot cells) := by
  unfold fillCells
  split <;> rfl

theorem steady_addDirective (d : Draft) (line : List Char) : Steady (addDirective d line) := by
  apply (steady_readDirective line).bind
  rintro ⟨name, cells⟩
  dsimp only
  split
  case h_1 | h_2 | h_3 => exact (steady_fillCell _ _ line cells).bind fun _ => .ok _
  case h_4 | h_5 => exact (steady_fillCells _ _ cells).bind fun _ => .ok _
  case h_6 | h_7 => rfl

theorem steady_addPatchDirective (d : PatchDraft) (line : List Char) :
    Steady (addPatchDirective d line) := by
  apply (steady_readDirective line).bind
  rintro ⟨name, cells⟩
  dsimp only
  split
  · exact (steady_fillCell _ _ line cells).bind fun _ => .ok _
  · rfl

theorem steady_require (part : Section) (slot : Option α) : Steady (require part slot) := by
  cases slot <;> rfl

theorem steady_checkWithin (part : Section) (lo hi : Coord) (cs : List Coord) :
    Steady (checkWithin part lo hi cs) := by
  induction cs with
  | nil => exact .ok ()
  | cons c cs ih =>
    rw [checkWithin]
    split
    · exact ih
    · rfl

theorem steady_buildAll (lo : Coord) (n : Nat) (ds : List PatchDraft) :
    Steady (PatchDraft.buildAll lo n ds) := by
  induction ds generalizing n with
  | nil => exact .ok []
  | cons d ds ih =>
    have patch : Steady (d.build lo) := by
      apply (steady_require _ _).bind
      intro tiles
      apply (steady_require _ _).bind
      intro origin
      exact (steady_checkWithin _ _ _ _).bind fun _ => .ok _
    exact (patch.inPatch n).bind fun _ => (ih (n + 1)).bind fun _ => .ok _

theorem steady_build (d : Draft) : Steady d.build := by
  apply (steady_require _ _).bind
  intro tiles
  apply (steady_checkWithin _ _ _ _).bind
  intro _
  apply (steady_require _ _).bind
  intro spawn
  apply (steady_checkWithin _ _ _ _).bind
  intro _
  apply (steady_checkWithin _ _ _ _).bind
  intro _
  apply (steady_checkWithin _ _ _ _).bind
  intro _
  apply (steady_checkWithin _ _ _ _).bind
  intro _
  exact (steady_buildAll _ _ _).bind fun _ => .ok _

theorem steady_ofRows (rows : List (List TileKind)) : Steady (TileMap.ofRows rows) := by
  unfold TileMap.ofRows
  dsimp only
  split
  · rfl
  · split
    · rfl
    · split <;> rfl

/-! ## Maps -/

theorem filledLines_withReturns (s : List Char) : filledLines (withReturns s) = filledLines s := by
  induction s using piecewise '\n' with
  | last s h => rw [withReturns_of_not_mem h]
  | first s t h ih =>
    have blank : isBlank '\r' = true := by decide
    rw [withReturns_line h, filledLines_append, filledLines_concat_blank blank, filledLines_append,
      ih]

section
variable (map : List Char)

theorem readRun_withReturns (row : Nat) (run : List Char) :
    readRun (withReturns map) row run =
      (readRun map row run).mapError LevelError.withReturns := by
  unfold readRun
  dsimp only
  split
  · rw [mapError_error, LevelError.withReturns, String.toList_ofList]
  · generalize (if run.takeWhile isDigit = [] then 1 else value (run.takeWhile isDigit)) = n
    split <;> rfl

theorem mapM_mapError {ε δ α β : Type} (m : ε → δ) (f : α → Except ε β) (as : List α) :
    (as.mapM fun a => (f a).mapError m) = (as.mapM f).mapError m := by
  induction as with
  | nil => rfl
  | cons a as ih =>
    simp only [List.mapM_cons, mapError_bind, ih]
    rfl

theorem readRow_withReturns (row : Nat) (line : List Char) :
    readRow (withReturns map) row line =
      (readRow map row line).mapError LevelError.withReturns := by
  have runs := funext (readRun_withReturns map row)
  rw [readRow, readRow, runs, mapM_mapError, mapError_bind]
  rfl

theorem readRows_withReturns (row : Nat) (ls : List (List Char)) :
    readRows (withReturns map) row ls =
      (readRows map row ls).mapError LevelError.withReturns := by
  induction ls generalizing row with
  | nil => rfl
  | cons line ls ih =>
    rw [readRows, readRows, readRow_withReturns, ih (row + 1), mapError_bind]
    simp only [mapError_bind]
    rfl

end

theorem readMap_withReturns (body : List Char) :
    readMap (withReturns body) = (readMap body).mapError LevelError.withReturns := by
  have shape (rows : List (List TileKind)) :
      (TileMap.ofRows rows).mapError LevelError.withReturns = TileMap.ofRows rows :=
    steady_ofRows rows
  unfold readMap
  dsimp only
  rw [trim_withReturns, rowLines_eq, rowLines_eq, filledLines_withReturns, readRows_withReturns,
    mapError_bind]
  simp only [shape]

/-! ## Levels -/

theorem fillMap_withReturns (slot : Option TileMap) (body : List Char) :
    fillMap slot (withReturns body) = (fillMap slot body).mapError LevelError.withReturns := by
  rw [fillMap, fillMap, readMap_withReturns, mapError_bind]
  cases slot <;> rfl

theorem addPiece_withReturns (d : Draft) (p : Piece) :
    addPiece d p.withReturns = (addPiece d p).mapError LevelError.withReturns := by
  cases p with
  | map body =>
    rw [Piece.withReturns, addPiece, addPiece, fillMap_withReturns, mapError_bind]
    rfl
  | directive line => exact (steady_addDirective d line).symm
  | alt | unterminated => rfl

theorem addPatchPiece_withReturns (n : Nat) (d : PatchDraft) (p : Piece) :
    addPatchPiece n d p.withReturns = (addPatchPiece n d p).mapError LevelError.withReturns := by
  cases p with
  | map body =>
    rw [Piece.withReturns, addPatchPiece, addPatchPiece, fillMap_withReturns, mapError_bind]
    cases fillMap d.map body <;> rfl
  | directive line => exact ((steady_addPatchDirective d line).inPatch n).symm
  | alt | unterminated => rfl

theorem foldlM_mapError {ε δ α σ : Type} {m : ε → δ} {g : α → α} {f : σ → α → Except ε σ}
    {f' : σ → α → Except δ σ} (same : ∀ d a, f' d (g a) = (f d a).mapError m) (as : List α)
    (d : σ) : (as.map g).foldlM f' d = (as.foldlM f d).mapError m := by
  induction as generalizing d with
  | nil => rfl
  | cons a as ih => simp only [List.map_cons, List.foldlM_cons, same, ih, mapError_bind]

theorem readPatches_withReturns (n : Nat) (parts : List (List Piece)) :
    readPatches n (parts.map (List.map Piece.withReturns)) =
      (readPatches n parts).mapError LevelError.withReturns := by
  induction parts generalizing n with
  | nil => rfl
  | cons ps parts ih =>
    rw [List.map_cons, readPatches, readPatches, foldlM_mapError (addPatchPiece_withReturns n),
      ih (n + 1), mapError_bind]
    simp only [mapError_bind]
    rfl

theorem readDraft_withReturns (ps : List Piece) :
    readDraft (ps.map Piece.withReturns) =
      (readDraft ps).mapError LevelError.withReturns := by
  have mark (p : Piece) : (p.withReturns == .alt) = (p == .alt) := by cases p <;> rfl
  have head (parts : List (List Piece)) :
      (parts.map (List.map Piece.withReturns)).headD [] =
        (parts.headD []).map Piece.withReturns := by cases parts <;> rfl
  unfold readDraft
  dsimp only
  rw [splitWhere_map mark, head, foldlM_mapError addPiece_withReturns, ← List.map_tail,
    readPatches_withReturns, mapError_bind]
  simp only [mapError_bind]
  rfl

theorem readLevel_withReturns (s : List Char) :
    readLevel (withReturns s) = (readLevel s).mapError LevelError.withReturns := by
  have built (d : Draft) : d.build.mapError LevelError.withReturns = d.build := steady_build d
  rw [readLevel, readLevel, scan_withReturns, readDraft_withReturns, mapError_bind]
  simp only [built]

theorem readLevels_withReturns {s : List Char} (plain : '\r' ∉ s) :
    readLevels (withReturns s) = readLevels s := by
  rw [readLevels, readLevels, chunks, chunks, lines_withReturns plain]

end LevelText

/-- How lines end makes no difference to a file of levels, nor to a single level, but for the map
that is quoted where one of its tiles is unknown. -/
theorem line_ends_do_not_matter {t t' : String} (plain : '\r' ∉ t.toList)
    (returns : t'.toList = Text.withReturns t.toList) :
    Level.listOfText t' = Level.listOfText t ∧
    (∀ l, Level.ofText t' = .ok l ↔ Level.ofText t = .ok l) ∧
    ∀ e, Level.ofText t = .error e → Level.ofText t' = .error e.withReturns := by
  have level : Level.ofText t' = (Level.ofText t).mapError LevelError.withReturns := by
    rw [Level.ofText, returns, LevelText.readLevel_withReturns, Level.ofText]
  refine ⟨?_, ?_, ?_⟩
  · rw [Level.listOfText, returns, LevelText.readLevels_withReturns plain, Level.listOfText]
  · intro l
    rw [level, mapError_eq_ok]
  · intro e refused
    rw [level, refused, mapError_error]

/-- Two tiles of ice, and nothing else. -/
def floe : Level := ⟨.zero, .zero, .filled 2 1 .ice, [], [], none, []⟩

/-- The first text is a level; the second has a patch with an unknown tile. -/
theorem line_ends_do_not_matter_in_mud :
    (Level.listOfText "# one\nmap\n2ice\n;\npuffle (0,0)\n" = .ok [floe] ∧
      Level.listOfText "# one\r\nmap\r\n2ice\r\n;\r\npuffle (0,0)\r\n" = .ok [floe] ∧
      Level.ofText "# one\r\nmap\r\n2ice\r\n;\r\npuffle (0,0)\r\n" = .ok floe) ∧
    Level.ofText "map 2ice;\npuffle (0,0)\nalt\nmap\nice\nmud;" =
      .error (.inPatch 1 (.unknownTile "mud" 1 "ice\nmud")) ∧
    Level.ofText "map 2ice;\r\npuffle (0,0)\r\nalt\r\nmap\r\nice\r\nmud;" =
      .error (.inPatch 1 (.unknownTile "mud" 1 "ice\r\nmud")) := by
  have file : Level.listOfText "# one\nmap\n2ice\n;\npuffle (0,0)\n" = .ok [floe] := by
    decide +kernel
  have alone : Level.ofText "# one\nmap\n2ice\n;\npuffle (0,0)\n" = .ok floe := by
    decide +kernel
  have refused : Level.ofText "map 2ice;\npuffle (0,0)\nalt\nmap\nice\nmud;" =
      .error (.inPatch 1 (.unknownTile "mud" 1 "ice\nmud")) := by decide +kernel
  obtain ⟨same, accepted, _⟩ := @line_ends_do_not_matter "# one\nmap\n2ice\n;\npuffle (0,0)\n"
    "# one\r\nmap\r\n2ice\r\n;\r\npuffle (0,0)\r\n" (by decide) (by decide +kernel)
  obtain ⟨_, _, quoted⟩ := @line_ends_do_not_matter "map 2ice;\npuffle (0,0)\nalt\nmap\nice\nmud;"
    "map 2ice;\r\npuffle (0,0)\r\nalt\r\nmap\r\nice\r\nmud;" (by decide) (by decide +kernel)
  exact ⟨⟨file, same.trans file, (accepted _).2 alone⟩, refused, quoted _ refused⟩

end IceMaze
