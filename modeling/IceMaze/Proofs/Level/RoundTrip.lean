import IceMaze.Proofs.Level.Sections

/-!
Files of levels are read back as they are written.

A written level is a list of lines with words on them (`lined_writeLevel`), so that the lines
between the levels stand out: `chunks_writeLevels` takes a file apart into the texts of its levels.
-/

namespace IceMaze

namespace LevelText

open Text

/-! ## Lines -/

/-- A text of ordinary lines, each ended by a newline. -/
def Lined (s : List Char) : Prop :=
  ∃ ls : List (List Char), s = ls.flatMap (· ++ ['\n']) ∧ ∀ line ∈ ls, Ordinary line

theorem Lined.nil : Lined [] := ⟨[], rfl, nofun⟩

theorem Lined.append {s t : List Char} (hs : Lined s) (ht : Lined t) : Lined (s ++ t) := by
  obtain ⟨ls, rfl, ordinary⟩ := hs
  obtain ⟨ms, rfl, ordinary'⟩ := ht
  exact ⟨ls ++ ms, List.flatMap_append.symm, List.forall_mem_append.2 ⟨ordinary, ordinary'⟩⟩

theorem Ordinary.lined {line : List Char} (h : Ordinary line) : Lined (line ++ ['\n']) :=
  ⟨[line], by simp, by simpa using h⟩

theorem Lined.flatten {ss : List (List Char)} (h : ∀ s ∈ ss, Lined s) : Lined ss.flatten := by
  induction ss with
  | nil => exact .nil
  | cons s ss ih =>
    rw [List.forall_mem_cons] at h
    exact h.1.append (ih h.2)

theorem lined_joinWith {ls : List (List Char)} (ne : ls ≠ []) (h : ∀ line ∈ ls, Ordinary line)
    {t : List Char} (ht : Solid t) : Lined (joinWith '\n' ls ++ t ++ ['\n']) := by
  induction ls with
  | nil => exact absurd rfl ne
  | cons line ls ih =>
    rw [List.forall_mem_cons] at h
    cases ls with
    | nil => exact (h.1.append ht).lined
    | cons next ls =>
      have text : joinWith '\n' (line :: next :: ls) ++ t ++ ['\n'] =
          (line ++ ['\n']) ++ (joinWith '\n' (next :: ls) ++ t ++ ['\n']) := by
        simp [joinWith]
      rw [text]
      exact h.1.lined.append (ih (by simp) h.2)

theorem ordinary_of_letters {name : List Char} (letters : name.all isLetter = true)
    (ne : name ≠ []) : Ordinary name := by
  rw [List.all_eq_true] at letters
  obtain ⟨c, hc⟩ := List.exists_mem_of_ne_nil _ ne
  exact ⟨fun d hd => isBlank_of_isLetter (letters d hd), c, hc, letters c hc⟩

theorem lined_mapSection {m : TileMap} (h : m.Proper) : Lined (mapSection m) := by
  have rows : m.rows.map writeRow ≠ [] := by
    rw [TileMap.rows_eq h]
    have := h.2.1
    simp
    omega
  have head : Ordinary ['m', 'a', 'p'] := ordinary_of_letters (by decide) (by decide)
  have text : mapSection m = (['m', 'a', 'p'] ++ ['\n']) ++ (writeMap m ++ [';'] ++ ['\n']) := by
    simp [mapSection]
  rw [text]
  exact head.lined.append (lined_joinWith rows (ordinary_of_mem_rows h) (.singleton (by decide)))

theorem lined_cellSection (part : Section) (cells : List Coord) :
    Lined (cellSection part cells) := by
  have name : Ordinary part.name.toList :=
    ordinary_of_letters (letters_name part) (by cases part <;> decide)
  exact (name.append (solid_writeCells cells)).lined

theorem lined_writeLevel {l : Level} (h : l.Writable) : Lined (writeLevel l) := by
  have optional (b : Prop) [Decidable b] (part : Section) (cells : List Coord) :
      ∀ s ∈ if b then [] else [cellSection part cells], Lined s := by
    split
    · nofun
    · simpa using lined_cellSection part cells
  refine .append (.flatten ?_) ?_
  · simp only [baseSections, List.forall_mem_append]
    refine ⟨⟨⟨⟨⟨?_, optional _ _ _⟩, ?_⟩, optional _ _ _⟩, optional _ _ _⟩, ?_⟩
    · simpa using lined_mapSection h.tiles
    · simpa using lined_cellSection .puffle [l.spawn]
    · intro s hs
      obtain ⟨c, _, rfl⟩ := List.mem_map.1 hs
      exact lined_cellSection .bag [c]
  · apply Lined.flatten
    intro s hs
    obtain ⟨p, hp, rfl⟩ := List.mem_map.1 hs
    have alt : Ordinary ['a', 'l', 't'] := ordinary_of_letters (by decide) (by decide)
    refine Lined.append (s := "alt\n".toList) alt.lined (.flatten ?_)
    simp only [patchSections, List.forall_mem_cons]
    exact ⟨lined_mapSection (h.patches p hp).1, lined_cellSection .origin [p.origin], nofun⟩

/-! ## Files -/

theorem writeLevels_cons (l : Level) (ls : List Level) :
    writeLevels (l :: ls) = writeLevel l ++ ls.flatMap fun m => separator ++ writeLevel m := by
  induction ls generalizing l with
  | nil => simp [writeLevels]
  | cons m ls ih =>
    rw [writeLevels, ih, List.flatMap_cons]
    simp

theorem not_isSeparator {line : List Char} (h : Ordinary line) : isSeparator line = false := by
  obtain ⟨c, hc, letter⟩ := h.word
  rw [isSeparator, trim_of_solid h.solid, beq_eq_false_iff_ne]
  rintro rfl
  have dash : c = '-' := by simpa using hc
  rw [dash] at letter
  exact absurd letter (by decide)

theorem trim_writeLevel (l : Level) : trim (writeLevel l) ≠ [] := by
  have start : 'm' ∈ writeLevel l := by simp [writeLevel, baseSections, mapSection]
  exact List.ne_nil_of_mem (mem_trim start (by decide))

def joinLines (ls : List (List Char)) : List Char := ls.flatMap (· ++ ['\n'])

theorem exists_lines {ls : List Level} (h : ∀ l ∈ ls, l.Writable) :
    ∃ parts : List (List (List Char)), parts.map joinLines = ls.map writeLevel ∧
      ∀ part ∈ parts, ∀ line ∈ part, Ordinary line := by
  induction ls with
  | nil => exact ⟨[], rfl, nofun⟩
  | cons l ls ih =>
    rw [List.forall_mem_cons] at h
    obtain ⟨part, text, ordinary⟩ := lined_writeLevel h.1
    obtain ⟨parts, texts, rest⟩ := ih h.2
    refine ⟨part :: parts, ?_, List.forall_mem_cons.2 ⟨ordinary, rest⟩⟩
    rw [List.map_cons, List.map_cons, texts, text]
    rfl

/-- The separators are the only lines on which a file is split. -/
theorem splitWhere_parts {part : List (List Char)} {parts : List (List (List Char))}
    (ordinary : ∀ q ∈ part :: parts, ∀ line ∈ q, Ordinary line) :
    splitWhere isSeparator (lines (joinLines (part ++ parts.flatMap (['-', '-', '-'] :: ·)))) =
      part :: parts := by
  rw [List.forall_mem_cons] at ordinary
  have whole {line : List Char} (h : Ordinary line) : '\n' ∉ line ∧ '\r' ∉ line :=
    ⟨h.solid.not_mem (by decide), h.solid.not_mem (by decide)⟩
  have plain : ∀ line ∈ part ++ parts.flatMap (['-', '-', '-'] :: ·),
      '\n' ∉ line ∧ '\r' ∉ line := by
    intro line hl
    rcases List.mem_append.1 hl with hl | hl
    · exact whole (ordinary.1 line hl)
    · obtain ⟨q, hq, hl⟩ := List.mem_flatMap.1 hl
      rcases List.mem_cons.1 hl with rfl | hl
      · decide
      · exact whole (ordinary.2 q hq line hl)
  rw [joinLines, lines_flatMap plain]
  exact splitWhere_flatMap (by decide) (fun line hl => not_isSeparator (ordinary.1 line hl))
    fun q hq line hl => not_isSeparator (ordinary.2 q hq line hl)

theorem chunks_writeLevels {ls : List Level} (h : ∀ l ∈ ls, l.Writable) :
    chunks (writeLevels ls) = ls.map writeLevel := by
  cases ls with
  | nil => rfl
  | cons l ls =>
    obtain ⟨parts, texts, ordinary⟩ := exists_lines h
    cases parts with
    | nil => cases texts
    | cons part parts =>
      have text : writeLevels (l :: ls) =
          joinLines (part ++ parts.flatMap (['-', '-', '-'] :: ·)) := by
        rw [List.map_cons, List.map_cons, List.cons.injEq] at texts
        rw [writeLevels_cons, ← List.flatMap_map writeLevel (separator ++ ·), ← texts.1, ← texts.2]
        simp [joinLines, separator, List.flatMap_map, List.flatMap_assoc]
      have filled : ∀ chunk ∈ (l :: ls).map writeLevel, decide (trim chunk ≠ []) = true := by
        intro chunk hc
        obtain ⟨m, _, rfl⟩ := List.mem_map.1 hc
        simpa using trim_writeLevel m
      rw [chunks, text, splitWhere_parts ordinary]
      exact (congrArg _ texts).trans (List.filter_eq_self.2 filled)

end LevelText

/-! ## Levels -/

theorem Level.Writable.hasTiles {l : Level} (h : l.Writable) : l.HasTiles :=
  ⟨⟨h.tiles.1, h.tiles.2.1⟩, fun p hp => ⟨(h.patches p hp).1.1, (h.patches p hp).1.2.1⟩⟩

namespace LevelText

theorem readLevel_of_wellPlaced {l : Level} (h : l.Writable) (placed : l.WellPlaced) :
    readLevel (writeLevel l) = .ok l := by
  have kept := Bound.verdict_eq_ok.2 ((Level.wellPlaced_iff h.hasTiles).1 placed)
  rw [readLevel_writeLevel h, kept, ok_bind]
  rfl

theorem readLevel_of_misplaced {l : Level} (h : l.Writable) (misplaced : ¬l.WellPlaced) :
    ∃ kept b rest, l.bounds = kept ++ b :: rest ∧ (∀ a ∈ kept, a.Holds) ∧ ¬b.Holds ∧
      readLevel (writeLevel l) = .error b.error := by
  obtain ⟨kept, b, rest, split, holds, fails, refused⟩ :=
    Level.exists_first_broken h.hasTiles misplaced
  refine ⟨kept, b, rest, split, holds, fails, ?_⟩
  rw [readLevel_writeLevel h, refused]
  rfl

theorem readChunks_append_bind (as bs : List (List Char)) (n : Nat) :
    readChunks n (as ++ bs) =
      (do let la ← readChunks n as; let lb ← readChunks (n + as.length) bs; return la ++ lb) := by
  induction as generalizing n with
  | nil => exact (bind_pure _).symm
  | cons a as ih =>
    simp only [List.cons_append, readChunks, ih, List.length_cons, Nat.add_assoc,
      Nat.add_comm 1, bind_assoc, pure_bind]

/-- The first level that is refused decides. -/
theorem readChunks_append {ls : List Level} (h : ∀ l ∈ ls, l.Writable)
    (placed : ∀ l ∈ ls, l.WellPlaced) (n : Nat) (rest : List (List Char)) :
    readChunks n (ls.map writeLevel ++ rest) =
      (do let more ← readChunks (n + ls.length) rest; return ls ++ more) := by
  have read : readChunks n (ls.map writeLevel) = .ok ls := by
    induction ls generalizing n with
    | nil => rfl
    | cons l ls ih =>
      rw [List.forall_mem_cons] at h placed
      rw [List.map_cons, readChunks, readLevel_of_wellPlaced h.1 placed.1, mapError_ok, ok_bind,
        ih h.2 placed.2]
      rfl
  rw [readChunks_append_bind, read, ok_bind, List.length_map]

end LevelText

open LevelText

/-- A written file is read as the levels that were written, or refused for the first level that is
not well placed and the first bound that this level breaks. -/
theorem listOfText_listToText {ls : List Level} (h : ∀ l ∈ ls, l.Writable) :
    ((∀ l ∈ ls, l.WellPlaced) → Level.listOfText (Level.listToText ls) = .ok ls) ∧
    ∀ before l after, ls = before ++ l :: after → (∀ m ∈ before, m.WellPlaced) → ¬l.WellPlaced →
      ∃ kept b rest, l.bounds = kept ++ b :: rest ∧ (∀ a ∈ kept, a.Holds) ∧ ¬b.Holds ∧
        Level.listOfText (Level.listToText ls) = .error (.inLevel (before.length + 1) b.error) := by
  have read : Level.listOfText (Level.listToText ls) = readChunks 1 (ls.map writeLevel) := by
    rw [Level.listOfText, Level.listToText, String.toList_ofList, readLevels, chunks_writeLevels h]
  constructor
  · intro placed
    have all := readChunks_append h placed 1 []
    rw [List.append_nil] at all
    rw [read, all, readChunks, ok_bind, List.append_nil]
    rfl
  · rintro before l after rfl placed misplaced
    rw [List.forall_mem_append, List.forall_mem_cons] at h
    obtain ⟨kept, b, rest, split, holds, fails, refused⟩ := readLevel_of_misplaced h.2.1 misplaced
    refine ⟨kept, b, rest, split, holds, fails, ?_⟩
    rw [read, List.map_append, readChunks_append h.1 placed, List.map_cons, readChunks, refused,
      Nat.add_comm]
    rfl

/-- Two tiles of ice with keys on them or beside them. -/
def keyed (keys : List Coord) : Level where
  origin := .zero
  spawn := .zero
  tiles := .filled 2 1 .ice
  keys := keys
  blocks := []
  bag := none
  patches := []

/-- The second level is refused for the key that lies beside the map. -/
theorem listOfText_stray_key :
    Level.listOfText (Level.listToText [keyed [⟨1, 0⟩], keyed [⟨1, 0⟩, ⟨2, 0⟩]]) =
      .error (.inLevel 2 (.outOfBounds .keys ⟨2, 0⟩)) := by
  have tiles : (TileMap.filled 2 1 .ice).Proper := ⟨by decide, by decide, by decide, by decide⟩
  have zero : Coord.zero.Writable := ⟨by decide, by decide⟩
  have writable (keys : List Coord) (h : ∀ c ∈ keys, c.Writable) : (keyed keys).Writable :=
    ⟨tiles, zero, zero, h, nofun, nofun, nofun⟩
  have tidy : (keyed [⟨1, 0⟩]).WellPlaced :=
    ⟨by decide, ⟨by decide, by decide, by decide, by decide⟩, by decide, by decide, nofun, nofun,
      nofun, nofun⟩
  have stray : ¬(keyed [⟨1, 0⟩, ⟨2, 0⟩]).WellPlaced := fun placed =>
    absurd (placed.keys_within ⟨2, 0⟩ (by decide)) (by decide)
  have all : ∀ l ∈ [keyed [⟨1, 0⟩], keyed [⟨1, 0⟩, ⟨2, 0⟩]], l.Writable := by
    simp only [List.forall_mem_cons]
    refine ⟨writable _ ?_, writable _ ?_, nofun⟩ <;> simp [Coord.Writable, Coord.InRange]
  obtain ⟨kept, b, rest, split, _, fails, refused⟩ :=
    (listOfText_listToText all).2 [keyed [⟨1, 0⟩]] _ [] rfl (by simpa using tidy) stray
  have only : ∀ a ∈ (keyed [⟨1, 0⟩, ⟨2, 0⟩]).bounds, ¬a.Holds →
      a.error = .outOfBounds .keys ⟨2, 0⟩ := by decide
  rw [refused, only b (by simp [split]) fails]
  rfl

end IceMaze
