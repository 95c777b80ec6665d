import IceMaze.Level.Record
import IceMaze.Proofs.Json.Compact
import IceMaze.Proofs.Json.Records
import IceMaze.Proofs.Level.RoundTrip

/-!
JSON files of levels are read back as they are written, just as text files are.

A written level is read as the record that describes it (`ofJson?_levelJson`). From there on both
formats build the same draft, and `reread` is what reading either file comes to.
-/

namespace IceMaze

namespace LevelRecord

open Json

/-! ## Fields -/

theorem coordinate?_int {n : Int} (h : Coord.InRange n) : coordinate? (.int n) = some n := by
  obtain ⟨low, high⟩ := h
  exact toInt?_int ⟨low, high⟩ (by omega) (by omega)

theorem cell?_cellJson {c : Coord} (h : c.Writable) : cell? (cellJson c) = some c := by
  have numbers : toList? coordinate? (cellJson c) = some [c.x, c.y] := by
    have each : ∀ n ∈ [c.x, c.y], coordinate? (.int n) = some n := by
      simpa using And.intro (coordinate?_int h.1) (coordinate?_int h.2)
    exact toList?_arr each
  rw [cell?, numbers]
  rfl

theorem cells?_cellsJson {cs : List Coord} (h : ∀ c ∈ cs, c.Writable) :
    toList? cell? (cellsJson cs) = some cs :=
  toList?_arr fun c hc => cell?_cellJson (h c hc)

/-- The codes of a map, row by row. -/
def codes (m : TileMap) : List (List Int) := m.rows.map fun row => row.map fun k => (k.code : Int)

theorem code_lt (k : TileKind) : k.code < 14 := by cases k <;> decide

theorem rows?_mapJson (m : TileMap) : rows? (mapJson m) = some (codes m) := by
  have json : mapJson m = .arr ((codes m).map fun row => .arr (row.map Json.int)) := by
    simp [mapJson, codes, Function.comp_def]
  rw [json]
  apply toList?_arr
  intro row hrow
  apply toList?_arr
  intro code hcode
  obtain ⟨kinds, _, rfl⟩ := List.mem_map.1 hrow
  obtain ⟨k, _, rfl⟩ := List.mem_map.1 hcode
  have small := code_lt k
  exact toInt?_int ⟨by omega, by omega⟩ (by omega) (by omega)

/-! ## Written levels -/

def patchFields (p : Patch) : List (String × Option Json) :=
  [("m", some (mapJson p.tiles)), ("o", some (cellJson p.origin))]

def levelFields (l : Level) : List (String × Option Json) :=
  [("m", some (mapJson l.tiles)),
    ("o", if l.origin = .zero then none else some (cellJson l.origin)),
    ("s", some (cellJson l.spawn)),
    ("k", if l.keys = [] then none else some (cellsJson l.keys)),
    ("b", if l.blocks = [] then none else some (cellsJson l.blocks)),
    ("c", l.bag.map cellJson),
    ("a", if l.patches = [] then none else some (.arr (l.patches.map patchJson)))]

theorem patchJson_eq (p : Patch) : patchJson p = .obj (present (patchFields p)) := rfl

theorem levelJson_eq (l : Level) : levelJson l = .obj (present (levelFields l)) := by
  have optional (b : Prop) [Decidable b] (key : String) (v : Json) :
      (if b then [] else [member key v]) =
        ((if b then none else some v).map (member key)).toList := by
    split <;> rfl
  have bag : (l.bag.toList.map fun c => member "c" (cellJson c)) =
      ((l.bag.map cellJson).map (member "c")).toList := by
    cases l.bag <;> rfl
  simp only [levelJson, levelFields, present, List.flatMap_cons, List.flatMap_nil, optional, bag,
    List.append_assoc, List.append_nil, Option.map_some, Option.toList_some]
  rfl

theorem distinct_patchFields (p : Patch) : ((patchFields p).map Prod.fst).Nodup := by
  change ["m", "o"].Nodup
  decide

theorem distinct_levelFields (l : Level) : ((levelFields l).map Prod.fst).Nodup := by
  change ["m", "o", "s", "k", "b", "c", "a"].Nodup
  decide

def ofPatch (p : Patch) : PatchRecord := ⟨some (codes p.tiles), some p.origin⟩

def ofLevel (l : Level) : LevelRecord where
  map := some (codes l.tiles)
  origin := if l.origin = .zero then none else some l.origin
  spawn := some l.spawn
  keys := l.keys
  blocks := l.blocks
  bag := l.bag
  patches := l.patches.map ofPatch

theorem optional?_some {α : Type} {f : Json → Option α} {items : List Json} {a : α}
    (h : f (.arr items) = some a) : optional? f (some (.arr items)) = some (some a) := by
  simp [optional?, h]

theorem patch?_patchJson {p : Patch} (origin : p.origin.Writable) :
    patch? (patchJson p) = some (ofPatch p) := by
  have fields := fields?_present (distinct_patchFields p) .refused
  rw [← patchJson_eq] at fields
  have names : (patchFields p).map Prod.fst = ["m", "o"] := rfl
  have map : optional? rows? (some (mapJson p.tiles)) = some (some (codes p.tiles)) :=
    optional?_some (rows?_mapJson p.tiles)
  have cell : optional? cell? (some (cellJson p.origin)) = some (some p.origin) :=
    optional?_some (cell?_cellJson origin)
  rw [patch?, ← names, fields]
  simp only [patchFields, List.map_cons, List.map_nil, Option.bind_eq_bind, Option.bind_some, map, cell]
  rfl

/-- A written level is read as the record of its parts. -/
theorem ofJson?_levelJson {l : Level} (h : l.Writable) : ofJson? (levelJson l) = some (ofLevel l) := by
  have fields := fields?_present (distinct_levelFields l) .refused
  rw [← levelJson_eq] at fields
  have names : (levelFields l).map Prod.fst = ["m", "o", "s", "k", "b", "c", "a"] := rfl
  have map : optional? rows? (some (mapJson l.tiles)) = some (some (codes l.tiles)) :=
    optional?_some (rows?_mapJson l.tiles)
  have origin : optional? cell? (if l.origin = .zero then none else some (cellJson l.origin)) =
      some (if l.origin = .zero then none else some l.origin) := by
    split
    · rfl
    · exact optional?_some (cell?_cellJson h.origin)
  have spawn : optional? cell? (some (cellJson l.spawn)) = some (some l.spawn) :=
    optional?_some (cell?_cellJson h.spawn)
  have listed {α : Type} [DecidableEq α] {f : Json → Option (List α)} {as : List α} {v : Json}
      (read : f v = some as) :
      withDefault? [] f (if as = [] then none else some v) = some as := by
    split
    · rename_i none
      rw [none]
      rfl
    · exact read
  have bag : optional? cell? (l.bag.map cellJson) = some l.bag := by
    cases bag : l.bag with
    | none => rfl
    | some c => exact optional?_some (cell?_cellJson (h.bag c bag))
  have patches : withDefault? [] (toList? patch?)
      (if l.patches = [] then none else some (.arr (l.patches.map patchJson))) =
        some (l.patches.map ofPatch) := by
    have read : toList? patch? (.arr (l.patches.map patchJson)) = some (l.patches.map ofPatch) :=
      mapM_eq_some fun p hp => patch?_patchJson (h.patches p hp).2
    split
    · rename_i none
      rw [none]
      rfl
    · exact read
  rw [ofJson?, ← names, fields]
  simp only [levelFields, List.map_cons, List.map_nil, Option.bind_eq_bind, Option.bind_some, map,
    origin, spawn, listed (cells?_cellsJson h.keys), listed (cells?_cellsJson h.blocks), bag,
    patches]
  rfl

/-! ## Drafts -/

theorem kindOfCode?_code (k : TileKind) : kindOfCode? (k.code : Int) = some k := by
  rw [kindOfCode?, if_pos (Int.natCast_nonneg _), Int.toNat_natCast, TileKind.ofCode?_code]

theorem decodeRow_codes (row col : Nat) (kinds : List TileKind) :
    decodeRow row col (kinds.map fun k => (k.code : Int)) = .ok kinds := by
  induction kinds generalizing col with
  | nil => rfl
  | cons k kinds ih =>
    rw [List.map_cons, decodeRow, kindOfCode?_code]
    dsimp only
    rw [ih, ok_bind]
    rfl

theorem decodeRows_codes (row : Nat) (rows : List (List TileKind)) :
    decodeRows row (rows.map fun r => r.map fun k => (k.code : Int)) = .ok rows := by
  induction rows generalizing row with
  | nil => rfl
  | cons r rows ih =>
    rw [List.map_cons, decodeRows, decodeRow_codes, ok_bind, ih, ok_bind]
    rfl

theorem decodeMap_codes {m : TileMap} (h : m.Proper) : decodeMap (codes m) = .ok m := by
  rw [decodeMap, codes, decodeRows_codes, ok_bind, TileMap.ofRows_rows h]

theorem decodePatches_ofPatch {ps : List Patch} (h : ∀ p ∈ ps, p.tiles.Proper) (n : Nat) :
    decodePatches n (ps.map ofPatch) = .ok (ps.map Patch.draft) := by
  induction ps generalizing n with
  | nil => rfl
  | cons p ps ih =>
    rw [List.forall_mem_cons] at h
    have map : decodeMap? (ofPatch p).map = .ok (some p.tiles) := by
      rw [ofPatch, decodeMap?, decodeMap_codes h.1]
      rfl
    rw [List.map_cons, decodePatches, map, mapError_ok, ok_bind, ih h.2, ok_bind]
    rfl

/-- The draft that a written level is read as. -/
theorem toDraft_ofLevel {l : Level} (h : l.Writable) :
    ∃ d, (ofLevel l).toDraft = .ok d ∧ d.Describes l := by
  have map : decodeMap? (ofLevel l).map = .ok (some l.tiles) := by
    rw [ofLevel, decodeMap?, decodeMap_codes h.tiles]
    rfl
  have patches : decodePatches 1 (ofLevel l).patches = .ok (l.patches.map Patch.draft) :=
    decodePatches_ofPatch (fun p hp => (h.patches p hp).1) 1
  rw [toDraft, map, ok_bind, patches, ok_bind]
  refine ⟨_, rfl, rfl, ?_, rfl, rfl, rfl, rfl, rfl⟩
  by_cases zero : l.origin = .zero
  · simp [ofLevel, zero]
  · simp [ofLevel, zero]

/-- A written level is read as itself, or refused for the first bound that it breaks. -/
theorem readLevel_levelJson {l : Level} (h : l.Writable) :
    readLevel (levelJson l) = (do Bound.verdict l.bounds; return l) := by
  obtain ⟨d, drafted, describes⟩ := toDraft_ofLevel h
  rw [readLevel, ofJson?_levelJson h]
  dsimp only
  rw [toLevel, drafted, ok_bind, describes.build_eq]

/-! ## The text -/

/-- A value that is legible and stays as it is down to some depth. -/
structure Plain (depth : Nat) (v : Json) : Prop where
  legible : v.Legible
  normal : Normal depth v

theorem plain_int {n : Int} (h : Coord.InRange n) (depth : Nat) : Plain depth (.int n) := by
  obtain ⟨low, high⟩ := h
  exact ⟨legible_int n, normal_int (by omega) (by omega) depth⟩

theorem plain_arr {α : Type} {depth : Nat} {written : α → Json} {as : List α}
    (h : ∀ a ∈ as, Plain depth (written a)) : Plain (depth + 1) (.arr (as.map written)) := by
  have each : ∀ v ∈ as.map written, Plain depth v := by
    intro v hv
    obtain ⟨a, ha, rfl⟩ := List.mem_map.1 hv
    exact h a ha
  exact ⟨.arr fun v hv => (each v hv).legible, normal_arr fun v hv => (each v hv).normal⟩

theorem plain_present {depth : Nat} {fields : List (String × Option Json)}
    (distinct : (fields.map Prod.fst).Nodup)
    (h : ∀ f ∈ fields, ∀ v, f.2 = some v → Plain depth v) :
    Plain (depth + 1) (.obj (present fields)) := by
  have keys : ∀ m ∈ present fields, m.1.isSome = true := by
    intro m hm
    obtain ⟨f, _, v, _, rfl⟩ := mem_present.1 hm
    rfl
  have values : ∀ m ∈ present fields, Plain depth m.2 := by
    intro m hm
    obtain ⟨f, hf, v, hv, rfl⟩ := mem_present.1 hm
    exact h f hf v hv
  exact ⟨.obj keys fun m hm => (values m hm).legible,
    normal_obj keys (nodup_keys_present distinct) fun m hm => (values m hm).normal⟩

theorem plain_cellJson {c : Coord} (h : c.Writable) (depth : Nat) :
    Plain (depth + 1) (cellJson c) := by
  have each : ∀ n ∈ [c.x, c.y], Plain depth (.int n) := by
    simpa using And.intro (plain_int h.1 depth) (plain_int h.2 depth)
  exact plain_arr each

theorem plain_cellsJson {cs : List Coord} (h : ∀ c ∈ cs, c.Writable) (depth : Nat) :
    Plain (depth + 2) (cellsJson cs) :=
  plain_arr fun c hc => plain_cellJson (h c hc) depth

theorem plain_mapJson (m : TileMap) (depth : Nat) : Plain (depth + 2) (mapJson m) := by
  apply plain_arr
  intro row _
  apply plain_arr
  intro k _
  have small := code_lt k
  exact plain_int ⟨by omega, by omega⟩ depth

theorem plain_patchJson {p : Patch} (origin : p.origin.Writable) (depth : Nat) :
    Plain (depth + 3) (patchJson p) := by
  rw [patchJson_eq]
  apply plain_present (distinct_patchFields p)
  simp only [patchFields, List.forall_mem_cons, Option.some.injEq, forall_eq']
  exact ⟨plain_mapJson p.tiles depth, plain_cellJson origin (depth + 1), nofun⟩

theorem plain_levelJson {l : Level} (h : l.Writable) (depth : Nat) :
    Plain (depth + 5) (levelJson l) := by
  rw [levelJson_eq]
  apply plain_present (distinct_levelFields l)
  have patches : Plain (depth + 4) (.arr (l.patches.map patchJson)) :=
    plain_arr fun p hp => plain_patchJson (h.patches p hp).2 depth
  simp only [levelFields, List.forall_mem_cons, Option.some.injEq, forall_eq', Option.ite_none_left_eq_some,
    Option.map_eq_some_iff, and_imp, forall_exists_index]
  refine ⟨plain_mapJson l.tiles _, ?_, plain_cellJson h.spawn _, ?_, ?_, ?_, ?_, nofun⟩
  · rintro v _ rfl
    exact plain_cellJson h.origin _
  · rintro v _ rfl
    exact plain_cellsJson h.keys _
  · rintro v _ rfl
    exact plain_cellsJson h.blocks _
  · rintro v c bag rfl
    exact plain_cellJson (h.bag c bag) _
  · rintro v _ rfl
    exact patches

/-- The values of a written file are those of its levels. -/
theorem file?_compact {ls : List Level} (h : ∀ l ∈ ls, l.Writable) :
    file? (compact (.arr (ls.map levelJson))) = some (ls.map levelJson) := by
  have plain : Plain maxDepth (.arr (ls.map levelJson)) :=
    plain_arr fun l hl => plain_levelJson (h l hl) 121
  have normal : (Json.arr (ls.map levelJson)).normalize? maxDepth =
      some (.arr (ls.map levelJson)) := plain.normal
  rw [file?, read?_compact plain.legible, Option.bind_eq_bind, Option.bind_some, normal]
  rfl

end LevelRecord

/-! ## Files -/

/-- What reading back written levels comes to, from number `n` on: the levels, or the first bound that
one of them breaks. -/
def Level.reread : Nat → List Level → Except LevelError (List Level)
  | _, [] => .ok []
  | n, l :: ls => do
    (Bound.verdict l.bounds).mapError (.inLevel n)
    let rest ← reread (n + 1) ls
    return l :: rest

theorem LevelText.readChunks_writeLevel {ls : List Level} (h : ∀ l ∈ ls, l.Writable) (n : Nat) :
    readChunks n (ls.map writeLevel) = Level.reread n ls := by
  induction ls generalizing n with
  | nil => rfl
  | cons l ls ih =>
    rw [List.forall_mem_cons] at h
    rw [List.map_cons, readChunks, readLevel_writeLevel h.1, ih h.2, mapError_bind, bind_assoc]
    rfl

theorem LevelRecord.readLevels_levelJson {ls : List Level} (h : ∀ l ∈ ls, l.Writable) (n : Nat) :
    readLevels n (ls.map levelJson) = Level.reread n ls := by
  induction ls generalizing n with
  | nil => rfl
  | cons l ls ih =>
    rw [List.forall_mem_cons] at h
    rw [List.map_cons, readLevels, readLevel_levelJson h.1, ih h.2, mapError_bind, bind_assoc]
    rfl

namespace Level

theorem reread_append {before : List Level} (tiles : ∀ l ∈ before, l.HasTiles)
    (placed : ∀ l ∈ before, l.WellPlaced) (n : Nat) (after : List Level) :
    reread n (before ++ after) =
      (do let more ← reread (n + before.length) after; return before ++ more) := by
  induction before generalizing n with
  | nil => exact (bind_pure _).symm
  | cons l before ih =>
    rw [List.forall_mem_cons] at tiles placed
    have kept := Bound.verdict_eq_ok.2 ((wellPlaced_iff tiles.1).1 placed.1)
    rw [List.cons_append, reread, kept, mapError_ok, ok_bind, ih tiles.2 placed.2,
      List.length_cons, Nat.add_assoc, Nat.add_comm 1]
    simp

theorem listOfText_eq_reread {ls : List Level} (h : ∀ l ∈ ls, l.Writable) :
    listOfText (listToText ls) = reread 1 ls := by
  rw [listOfText, listToText, String.toList_ofList, LevelText.readLevels,
    LevelText.chunks_writeLevels h, LevelText.readChunks_writeLevel h]

theorem listOfJsonText_eq_reread {ls : List Level} (h : ∀ l ∈ ls, l.Writable) :
    listOfJsonText (listToJsonText ls) = reread 1 ls := by
  rw [listOfJsonText, listToJsonText, String.toList_ofList, LevelRecord.file?_compact h]
  exact LevelRecord.readLevels_levelJson h 1

end Level

/-- A written JSON file is read as the levels that were written, or refused for the first level that
is not well placed and the first bound that this level breaks. The text of the same levels is read
with the same outcome. -/
theorem listOfJsonText_listToJsonText {ls : List Level} (h : ∀ l ∈ ls, l.Writable) :
    ((∀ l ∈ ls, l.WellPlaced) → Level.listOfJsonText (Level.listToJsonText ls) = .ok ls) ∧
    (∀ before l after, ls = before ++ l :: after → (∀ m ∈ before, m.WellPlaced) →
      ¬l.WellPlaced → ∃ kept b rest, l.bounds = kept ++ b :: rest ∧ (∀ a ∈ kept, a.Holds) ∧
        ¬b.Holds ∧ Level.listOfJsonText (Level.listToJsonText ls) =
          .error (.inLevel (before.length + 1) b.error)) ∧
    Level.listOfJsonText (Level.listToJsonText ls) = Level.listOfText (Level.listToText ls) := by
  have tiles : ∀ l ∈ ls, l.HasTiles := fun l hl => (h l hl).hasTiles
  rw [Level.listOfJsonText_eq_reread h, Level.listOfText_eq_reread h]
  refine ⟨fun placed => ?_, ?_, rfl⟩
  · have all := Level.reread_append tiles placed 1 []
    rw [List.append_nil] at all
    rw [all, Level.reread, ok_bind, List.append_nil]
    rfl
  · rintro before l after rfl placed misplaced
    rw [List.forall_mem_append, List.forall_mem_cons] at tiles
    obtain ⟨kept, b, rest, split, holds, fails, refused⟩ :=
      Level.exists_first_broken tiles.2.1 misplaced
    refine ⟨kept, b, rest, split, holds, fails, ?_⟩
    rw [Level.reread_append tiles.1 placed, Level.reread, refused, Nat.add_comm]
    rfl

/-- Two tiles of ice with a wall patched in at some cell. -/
def patched (origin : Coord) : Level where
  origin := .zero
  spawn := .zero
  tiles := .filled 2 1 .ice
  keys := [⟨1, 0⟩]
  blocks := []
  bag := none
  patches := [⟨origin, .filled 1 1 .wall⟩]

/-- The second level is refused in either format for the patch that lies in front of the map. -/
theorem listOfJsonText_stray_patch :
    Level.listOfJsonText (Level.listToJsonText [patched ⟨1, 0⟩, patched ⟨-1, 0⟩]) =
      .error (.inLevel 2 (.inPatch 1 (.outOfBounds .origin ⟨-1, 0⟩))) ∧
    Level.listOfText (Level.listToText [patched ⟨1, 0⟩, patched ⟨-1, 0⟩]) =
      .error (.inLevel 2 (.inPatch 1 (.outOfBounds .origin ⟨-1, 0⟩))) := by
  have proper (w : Nat) (k : TileKind) (one : 0 < w) (fits : w ≤ 19) :
      (TileMap.filled w 1 k).Proper := ⟨one, Nat.one_pos, fits, (by decide : 1 ≤ boardHeight)⟩
  have writable (origin : Coord) (h : origin.Writable) : (patched origin).Writable := by
    have zero : Coord.zero.Writable := ⟨by decide, by decide⟩
    refine ⟨proper 2 .ice (by decide) (by decide), zero, zero, ?_, List.forall_mem_nil _,
      fun _ here => absurd here (Option.not_mem_none _), ?_⟩
    · simp [patched, Coord.Writable, Coord.InRange]
    · simpa [patched] using ⟨proper 1 .wall (by decide) (by decide), h⟩
  have tidy : (patched ⟨1, 0⟩).WellPlaced :=
    ⟨by decide, ⟨by decide, by decide, by decide, by decide⟩, by decide, by decide,
      List.forall_mem_nil _, fun _ here => absurd here (Option.not_mem_none _), by decide,
      fun p hp => by
        cases List.mem_singleton.1 hp
        exact ⟨by decide, by decide, by decide, by decide⟩⟩
  have stray : ¬(patched ⟨-1, 0⟩).WellPlaced := fun placed =>
    absurd (placed.patches_after _ List.mem_cons_self).1 (by decide)
  have all : ∀ l ∈ [patched ⟨1, 0⟩, patched ⟨-1, 0⟩], l.Writable := by
    simp only [List.forall_mem_cons]
    refine ⟨writable _ ?_, writable _ ?_, List.forall_mem_nil _⟩ <;>
      simp [Coord.Writable, Coord.InRange]
  obtain ⟨_, misplaced, same⟩ := listOfJsonText_listToJsonText all
  obtain ⟨kept, b, rest, split, _, fails, refused⟩ :=
    misplaced [patched ⟨1, 0⟩] _ [] rfl (by simpa using tidy) stray
  have only : ∀ a ∈ (patched ⟨-1, 0⟩).bounds, ¬a.Holds →
      a.error = .inPatch 1 (.outOfBounds .origin ⟨-1, 0⟩) := by decide
  rw [only b (by simp [split]) fails] at refused
  exact ⟨refused, same ▸ refused⟩

end IceMaze
