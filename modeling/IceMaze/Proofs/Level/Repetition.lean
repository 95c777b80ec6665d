import IceMaze.Proofs.Level.Acceptance
import IceMaze.Proofs.Level.Filler
import IceMaze.Proofs.Level.Sections

/-!
Level texts in which a section is given twice.

A section that can be read (`Reads`) leaves a piece of its part (`Reads.scan`). Where the draft has
this part already, the piece is refused, before anything that follows is read and before the level
is built: `repeated_section_refused`.
-/

namespace IceMaze

namespace LevelText

open Text Piece

/-! ## Sections that can be read -/

/-- The text is one section of this part, with a map or cells that can be read. -/
inductive Reads : Section → List Char → Prop where
  | map {body tiles} (read : readMap body = .ok tiles) (unended : ';' ∉ body)
      (named : ∀ c ∈ body.head?, isLetter c = false) :
      Reads .map ("map".toList ++ body ++ [';'])
  | cells {part args cells} (not_map : part ≠ .map) (line : '\n' ∉ args)
      (read : readCells part.name.toList args = .ok cells) : Reads part (part.name.toList ++ args)

/-- Cells start with a parenthesis, with nothing but blanks in front of it. -/
theorem head_of_readCells {name args : List Char} {cells : List Coord}
    (read : readCells name args = .ok cells) : ∀ c ∈ args.head?, isLetter c = false := by
  obtain ⟨a, b, blank, _, text⟩ := exists_trim args
  have parenthesis : ∃ rest, trim args = '(' :: rest := by
    rw [readCells_eq_ok, readCells?_eq, Option.bind_eq_some_iff] at read
    obtain ⟨p, first, _⟩ := read
    unfold readCell? at first
    split at first
    · rename_i rest open_
      exact ⟨rest, open_⟩
    · cases first
  obtain ⟨rest, first⟩ := parenthesis
  rw [text, first]
  cases a with
  | nil =>
    rintro c ⟨⟩
    decide
  | cons d a =>
    intro c hc
    exact head_of_blank blank c hc

/-- A directive may be trimmed without a change to what it says. -/
theorem readDirective_trim {part : Section} {args : List Char} {cells : List Coord}
    (read : readCells part.name.toList args = .ok cells) :
    readDirective (trim (part.name.toList ++ args)) = .ok (part.name, cells) := by
  have letters := List.all_eq_true.1 (letters_name part)
  have named : part.name.toList ≠ [] := by cases part <;> decide
  have start : trimStart (part.name.toList ++ args) = part.name.toList ++ args := by
    apply trimStart_of_head
    intro c hc
    apply isBlank_of_isLetter
    apply letters
    rw [List.head?_append_of_ne_nil _ named] at hc
    exact List.mem_of_mem_head? hc
  obtain ⟨b, blank, text⟩ := exists_trimEnd (part.name.toList ++ args)
  obtain ⟨name, rest⟩ := takeWhile_dropWhile_append letters (head_of_readCells read)
  change nameOf _ = _ at name
  change afterName _ = _ at rest
  rw [text, (name_append_blank blank _).1] at name
  rw [text, (name_append_blank blank _).2] at rest
  have same : readCells part.name.toList (afterName (trimEnd (part.name.toList ++ args))) =
      .ok cells := by
    rw [readCells_eq_ok, ← trim_append_blank blank, rest]
    exact readCells_eq_ok.1 read
  rw [trim, start]
  simp only [readDirective, name, named, if_false, same, ok_bind, String.ofList_toList]
  rfl

/-- A section that can be read is scanned as a piece of its part. -/
theorem Reads.scan {part : Section} {text : List Char} (h : Reads part text) {tail : List Char}
    (ends : ∀ c ∈ tail.head?, c = '\n') :
    ∃ p rest, Names part p ∧ Piece.scan (text ++ tail) = p :: rest := by
  cases h with
  | @map body tiles read unended named =>
    refine ⟨.map body, Piece.scan tail, .map read, ?_⟩
    have text : "map".toList ++ body ++ [';'] ++ tail = ['m', 'a', 'p'] ++ (body ++ ';' :: tail) := by
      simp
    have stop : ∀ c ∈ (body ++ ';' :: tail).head?, isLetter c = false := by
      cases body with
      | nil =>
        rintro c ⟨⟩
        decide
      | cons d body => exact named
    rw [text, scan_name (by decide) (by decide) stop, if_pos rfl, cut?_eq_some.2 ⟨rfl, unended⟩]
  | @cells _ args cells not_map line read =>
    have letters := letters_name part
    have plain : '\n' ∉ part.name.toList ++ args := by
      rw [List.mem_append, not_or]
      refine ⟨?_, line⟩
      intro newline
      exact absurd (List.all_eq_true.1 letters _ newline) (by decide)
    have name := name_of_cells not_map
    have stop : ∀ c ∈ (args ++ tail).head?, isLetter c = false := by
      cases args with
      | nil =>
        intro c hc
        rw [ends c hc]
        decide
      | cons d args =>
        intro c hc
        exact head_of_readCells read c hc
    have first : before '\n' (part.name.toList ++ args ++ tail) = part.name.toList ++ args := by
      cases tail with
      | nil => rw [List.append_nil, before_of_not_mem plain]
      | cons c tail =>
        rw [ends c rfl]
        exact before_append plain
    have scanned := scan_name letters name.1 stop
    rw [if_neg name.2.1, if_neg name.2.2, ← List.append_assoc, first] at scanned
    exact ⟨_, _, .cells not_map (readDirective_trim read), scanned⟩

/-! ## Drafts that have the part already -/

theorem nameOf_text (e : Entry) : nameOf e.text = e.part.name.toList := by
  have cells (part : Section) (cs : List Coord) :
      nameOf (cellSection part cs) = part.name.toList := by
    rw [cellSection, List.append_assoc]
    exact (takeWhile_dropWhile_append (List.all_eq_true.1 (letters_name part))
      (head_cells_newline cs [])).1
  cases e with
  | map tiles => simp [nameOf, Entry.text, Entry.part, mapSection, Section.name, isLetter]
  | _ => exact cells _ _

theorem name_inj {s t : Section} (same : s.name.toList = t.name.toList) : s = t := by
  have found := congrArg Section.ofName? (String.toList_inj.1 same)
  rwa [Section.ofName?_name, Section.ofName?_name, Option.some_inj] at found

/-- The sections in front have this part among them. -/
theorem exists_given {es : List Entry} {done rest : List (List Char)} {part : Section}
    (split : es.map Entry.text = done ++ rest) (given : part.name.toList ∈ done.map nameOf) :
    ∃ fs gs, es = fs ++ gs ∧ done = fs.map Entry.text ∧ part ∈ fs.map Entry.part := by
  obtain ⟨fs, gs, rfl, rfl, rfl⟩ := List.map_eq_append_iff.1 split
  refine ⟨fs, gs, rfl, rfl, ?_⟩
  obtain ⟨sec, member, named⟩ := List.mem_map.1 given
  obtain ⟨e, he, rfl⟩ := List.mem_map.1 member
  rw [nameOf_text] at named
  exact List.mem_map.2 ⟨e, he, name_inj named⟩

theorem Names.ne_alt {s : Section} {p : Piece} (h : Names s p) : (p == .alt) = false := by
  cases h <;> rfl

theorem exists_split (es : List Entry) {s : Section} {p : Piece} (named : Names s p)
    (more : List Piece) : ∃ q qs, splitWhere (· == .alt) (es.map Entry.piece ++ p :: more) =
      (es.map Entry.piece ++ p :: q) :: qs := by
  have plain : ∀ a ∈ es.map Entry.piece ++ [p], (a == .alt) = false := by
    rw [List.forall_mem_append, List.forall_mem_singleton]
    exact ⟨ne_alt_of_entries es, named.ne_alt⟩
  obtain ⟨q, qs, split⟩ := exists_splitWhere_append plain more
  refine ⟨q, qs, ?_⟩
  simpa using split

/-- A part that the base has already is refused, whatever follows. -/
theorem readLevel_again {l : Level} (h : l.Writable) {es fs : List Entry}
    (entries : baseEntries l = es ++ fs) {s : Section} (given : s ∈ es.map Entry.part)
    {p : Piece} (named : Names s p) {text : List Char} {more : List Piece}
    (scanned : scan text = es.map Entry.piece ++ p :: more) :
    readLevel text = .error (.duplicateSection s) := by
  have writable := writable_of_mem_baseEntries h
  have distinct := nodup_baseEntries l
  rw [entries, List.forall_mem_append] at writable
  rw [entries, List.map_append] at distinct
  obtain ⟨q, qs, split⟩ := exists_split es named more
  have refused := baseSlots.foldlM_again writable.1 distinct.of_append_left given named q
  change (es.map Entry.piece ++ p :: q).foldlM addPiece .blank = _ at refused
  rw [readLevel, readDraft, scanned, split]
  dsimp only [List.headD_cons]
  rw [refused]
  rfl

/-- A part that a patch has already is refused, whatever follows, if everything in front of the
patch can be read. -/
theorem readLevel_again_in_patch {l : Level} (h : l.Writable) {before after : List Patch}
    {patch : Patch} (patches : l.patches = before ++ patch :: after) {es fs : List Entry}
    (entries : patchEntries patch = es ++ fs) {s : Section} (given : s ∈ es.map Entry.part)
    {p : Piece} (named : Names s p) {text : List Char} {more : List Piece}
    (scanned : scan text = basePieces l ++ (before.map patchPieces).flatMap (.alt :: ·) ++
      .alt :: (es.map Entry.piece ++ p :: more)) :
    readLevel text = .error (.inPatch (before.length + 1) (.duplicateSection s)) := by
  have takes := takes_patchEntries h (p := patch) (by simp [patches])
  have distinct := nodup_patchEntries patch
  rw [entries, List.forall_mem_append] at takes
  rw [entries, List.map_append] at distinct
  obtain ⟨q, qs, split⟩ := exists_split es named more
  have refused := (patchSlots (before.length + 1)).foldlM_again takes.1 distinct.of_append_left
    given named q
  change (es.map Entry.piece ++ p :: q).foldlM (addPatchPiece (before.length + 1)) .blank = _
    at refused
  have marked : splitWhere (· == .alt) (basePieces l ++
      (before.map patchPieces).flatMap (.alt :: ·) ++ .alt :: (es.map Entry.piece ++ p :: more)) =
        (baseEntries l).map Entry.piece :: ((before.map patchEntries).map (List.map Entry.piece) ++
          (es.map Entry.piece ++ p :: q) :: qs) := by
    rw [splitWhere_append (by decide), split, basePieces_eq, map_patchPieces, splitWhere_entries,
      List.cons_append]
  have front : before ⊆ l.patches := by
    rw [patches]
    exact List.subset_append_left _ _
  rw [readLevel, readDraft, scanned, marked]
  dsimp only [List.headD_cons, List.tail_cons]
  rw [foldlM_baseEntries h (.refl _), ok_bind,
    readPatches_entries h front (rearranged_self before), readPatches, Nat.add_comm, refused]
  rfl

end LevelText

open LevelText

/-- A part that is given twice is refused, in the base as well as in a patch, whatever follows the
second section. It may stand behind white space and comments. In front of the sections of a patch
stands the level as it is written with the patches before that one. -/
theorem repeated_section_refused {l : Level} (placed : l.WellPlaced) {part : Section}
    {f text tail : List Char} (filler : Filler f) (valid : Reads part text)
    (line : ∀ c ∈ tail.head?, c = '\n') :
    (∀ done rest, baseSections l = done ++ rest → part.name.toList ∈ done.map nameOf →
      Level.ofText (String.ofList (done.flatten ++ (f ++ text ++ tail))) =
        .error (.duplicateSection part)) ∧
    ∀ before p after, l.patches = before ++ p :: after →
      ∀ done rest, patchSections p = done ++ rest → part.name.toList ∈ done.map nameOf →
        Level.ofText (String.ofList (writeLevel { l with patches := before } ++ altLine ++
          done.flatten ++ (f ++ text ++ tail))) =
            .error (.inPatch (before.length + 1) (.duplicateSection part)) := by
  have writable := placed.writable
  obtain ⟨piece, more, named, scanned⟩ := valid.scan line
  have inserted : Piece.scan (f ++ text ++ tail) = piece :: more := by
    rw [List.append_assoc, filler.scan, scanned]
  constructor
  · intro done rest split given
    rw [baseSections_eq] at split
    obtain ⟨es, fs, entries, rfl, has⟩ := exists_given split given
    rw [Level.ofText, String.toList_ofList]
    apply readLevel_again writable entries has named
    rw [scan_entries, inserted]
  · intro before p after patches done rest split given
    rw [patchSections_eq] at split
    obtain ⟨es, fs, entries, rfl, has⟩ := exists_given split given
    rw [Level.ofText, String.toList_ofList]
    apply readLevel_again_in_patch writable patches entries has named
    rw [List.append_assoc, List.append_assoc, scan_writeLevel, altLine, scan_alt, scan_entries,
      inserted]
    rfl

/-- Two tiles of ice with a key, and water in the place of the second one. -/
def flooded : Level where
  origin := .zero
  spawn := .zero
  tiles := .filled 2 1 .ice
  keys := [⟨1, 0⟩]
  blocks := []
  bag := none
  patches := [⟨⟨1, 0⟩, .filled 1 1 .water⟩]

/-- Other keys in the base, and another map in the patch. -/
theorem repeated_section_refused_when_flooded :
    flooded.WellPlaced ∧
    Level.ofText "map\n2ice;\npuffle(0,0)\nkeys(1,0)\nkeys (0,0) , (1,0)\nand more" =
      .error (.duplicateSection .keys) ∧
    Level.ofText
      "map\n2ice;\npuffle(0,0)\nkeys(1,0)\nalt\nmap\nwater;\norigin(1,0)\n# again\nmap ice,ice;" =
        .error (.inPatch 1 (.duplicateSection .map)) := by
  have placed : flooded.WellPlaced := by decide
  have cells : readCells Section.keys.name.toList " (0,0) , (1,0)".toList =
      .ok [.zero, ⟨1, 0⟩] := by
    rw [readCells_eq_ok]
    decide +kernel
  have tiles : readMap " ice,ice".toList = .ok (.filled 2 1 .ice) := rfl
  have keys : Reads .keys (Section.keys.name.toList ++ " (0,0) , (1,0)".toList) :=
    .cells (by decide) (by decide) cells
  have map : Reads .map ("map".toList ++ " ice,ice".toList ++ [';']) :=
    .map tiles (by decide) (by rintro c ⟨⟩; decide)
  have comment : Filler "# again\n".toList := @Filler.comment " again".toList [] (by decide) .nil
  have line : ∀ c ∈ "\nand more".toList.head?, c = '\n' := by
    rintro c ⟨⟩
    rfl
  have last : ∀ c ∈ ([] : List Char).head?, c = '\n' := nofun
  have base := (repeated_section_refused placed .nil keys line).1
    (baseSections flooded) [] (List.append_nil _).symm (by decide)
  have patch := (repeated_section_refused placed comment map last).2
    [] _ [] rfl _ [] (List.append_nil _).symm (by decide)
  refine ⟨placed, Eq.trans ?_ base, Eq.trans ?_ patch⟩
  · congr 1
    decide +kernel
  · congr 1
    decide +kernel

end IceMaze
