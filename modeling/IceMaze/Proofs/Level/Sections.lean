import IceMaze.Proofs.Level.PieceText
import Mathlib.Data.List.Forall2
import Mathlib.Data.List.Nodup
import Mathlib.Data.List.Perm.Basic

/-!
The sections of a level text, one by one.

An `Entry` is a section with what it says. The draft of a level and that of a patch take sections
in the same manner (`Slots`): each part has a place of its own, which is filled once. The order of
the sections therefore makes no difference (`Slots.foldl_perm`), and a second section of a part is
refused wherever it stands (`Slots.foldlM_again`).

`readLevel_of_entries` is what becomes of the sections of a level in any order, and
`readLevel_writeLevel` what becomes of them as they are written.
-/

namespace IceMaze

/-- A section of a level text, with what it says. -/
inductive Entry where
  | map (tiles : TileMap)
  | origin (cell : Coord)
  | puffle (cell : Coord)
  | keys (cells : List Coord)
  | blocks (cells : List Coord)
  | bag (cell : Coord)

namespace Entry

open LevelText

def part : Entry → Section
  | .map _ => .map
  | .origin _ => .origin
  | .puffle _ => .puffle
  | .keys _ => .keys
  | .blocks _ => .blocks
  | .bag _ => .bag

def text : Entry → List Char
  | .map tiles => mapSection tiles
  | .origin c => cellSection .origin [c]
  | .puffle c => cellSection .puffle [c]
  | .keys cs => cellSection .keys cs
  | .blocks cs => cellSection .blocks cs
  | .bag c => cellSection .bag [c]

def piece : Entry → Piece
  | .map tiles => .map ('\n' :: writeMap tiles)
  | .origin c => cellPiece .origin [c]
  | .puffle c => cellPiece .puffle [c]
  | .keys cs => cellPiece .keys cs
  | .blocks cs => cellPiece .blocks cs
  | .bag c => cellPiece .bag [c]

/-- The section is not empty, and a level text can hold what it says. -/
def Writable : Entry → Prop
  | .map tiles => tiles.Proper
  | .origin c | .puffle c | .bag c => c.Writable
  | .keys cs | .blocks cs => cs ≠ [] ∧ ∀ c ∈ cs, c.Writable

/-- A section that a patch may have. -/
def InPatch (e : Entry) : Prop := e.part = .map ∨ e.part = .origin

end Entry

namespace Draft

/-- The draft has nothing of this part yet. -/
def Lacks (d : Draft) : Section → Prop
  | .map => d.map = none
  | .origin => d.origin = none
  | .puffle => d.spawn = none
  | .keys => d.keys = []
  | .blocks => d.blocks = []
  | .bag => d.bag = none

def put (d : Draft) : Entry → Draft
  | .map tiles => { d with map := some tiles }
  | .origin c => { d with origin := some c }
  | .puffle c => { d with spawn := some c }
  | .keys cs => { d with keys := cs }
  | .blocks cs => { d with blocks := cs }
  | .bag c => { d with bag := some c }

theorem lacks_put {d : Draft} {e : Entry} (writable : e.Writable) (s : Section) :
    (d.put e).Lacks s ↔ d.Lacks s ∧ s ≠ e.part := by
  cases e with
  | keys cs | blocks cs =>
    have ne := writable.1
    cases s <;> simp [put, Lacks, Entry.part, ne]
  | _ => cases s <;> simp [put, Lacks, Entry.part]

theorem put_comm {e f : Entry} (other : e.part ≠ f.part) (d : Draft) :
    (d.put e).put f = (d.put f).put e := by
  cases e <;> cases f <;> first
    | rfl
    | exact absurd rfl other

end Draft

namespace PatchDraft

/-- The draft has nothing of this part yet. Patches never have more than a map and an origin. -/
def Lacks (d : PatchDraft) : Section → Prop
  | .map => d.map = none
  | .origin => d.origin = none
  | _ => True

def put (d : PatchDraft) : Entry → PatchDraft
  | .map tiles => { d with map := some tiles }
  | .origin c => { d with origin := some c }
  | _ => d

theorem lacks_put {d : PatchDraft} {e : Entry} (allowed : e.InPatch) (s : Section) :
    (d.put e).Lacks s ↔ d.Lacks s ∧ s ≠ e.part := by
  cases e with
  | map tiles | origin c => cases s <;> simp [put, Lacks, Entry.part]
  | _ => simp [Entry.InPatch, Entry.part] at allowed

theorem put_comm {e f : Entry} (other : e.part ≠ f.part) (d : PatchDraft) :
    (d.put e).put f = (d.put f).put e := by
  cases e <;> cases f <;> first
    | rfl
    | exact absurd rfl other

end PatchDraft

namespace LevelText

open Text Piece

/-- A piece of this part that can be read, whatever the draft has already. -/
inductive Names : Section → Piece → Prop where
  | map {body tiles} (read : readMap body = .ok tiles) : Names .map (.map body)
  | cells {part line cells} (not_map : part ≠ .map)
      (read : readDirective line = .ok (part.name, cells)) : Names part (.directive line)

/-- A draft that takes each section in a place of its own, and refuses to fill a place again. -/
structure Slots (δ : Type) where
  blank : δ
  add : δ → Piece → Except LevelError δ
  put : δ → Entry → δ
  Lacks : δ → Section → Prop
  Takes : Entry → Prop
  /-- What an error is wrapped in. -/
  wrap : LevelError → LevelError
  lacks_blank (s : Section) : Lacks blank s
  lacks_put {d : δ} {e : Entry} (takes : Takes e) (s : Section) :
    Lacks (put d e) s ↔ Lacks d s ∧ s ≠ e.part
  put_comm {e f : Entry} (other : e.part ≠ f.part) (d : δ) : put (put d e) f = put (put d f) e
  add_new {d : δ} {e : Entry} (takes : Takes e) (lacks : Lacks d e.part) :
    add d e.piece = .ok (put d e)
  add_again {d : δ} {s : Section} {p : Piece} (named : Names s p) (given : ¬Lacks d s) :
    add d p = .error (wrap (.duplicateSection s))

namespace Slots

variable {δ : Type} (S : Slots δ) {d : δ} {es fs : List Entry}

/-- Sections are taken one after the other as long as none of them is given twice. -/
theorem foldlM_new (takes : ∀ e ∈ es, S.Takes e) (distinct : (es.map Entry.part).Nodup)
    (lacks : ∀ e ∈ es, S.Lacks d e.part) :
    (es.map Entry.piece).foldlM S.add d = .ok (es.foldl S.put d) := by
  induction es generalizing d with
  | nil => rfl
  | cons e es ih =>
    rw [List.forall_mem_cons] at takes lacks
    rw [List.map_cons, List.nodup_cons] at distinct
    rw [List.map_cons, List.foldlM_cons, S.add_new takes.1 lacks.1, ok_bind, List.foldl_cons]
    apply ih takes.2 distinct.2
    intro f hf
    rw [S.lacks_put takes.1]
    refine ⟨lacks.2 f hf, ?_⟩
    intro same
    exact distinct.1 (same ▸ List.mem_map_of_mem hf)

/-- Sections of different parts may be put in any order. -/
theorem foldl_perm (order : es.Perm fs) (distinct : (es.map Entry.part).Nodup) (d : δ) :
    es.foldl S.put d = fs.foldl S.put d := by
  apply order.foldl_eq'
  intro e he f hf d
  by_cases same : e = f
  · rw [same]
  · exact S.put_comm (fun parts => same (List.inj_on_of_nodup_map distinct he hf parts)) d

theorem lacks_foldl (takes : ∀ e ∈ es, S.Takes e) (s : Section) :
    S.Lacks (es.foldl S.put d) s ↔ S.Lacks d s ∧ s ∉ es.map Entry.part := by
  induction es generalizing d with
  | nil => simp
  | cons e es ih =>
    rw [List.forall_mem_cons] at takes
    rw [List.foldl_cons, ih takes.2, S.lacks_put takes.1, List.map_cons, List.mem_cons, not_or,
      and_assoc]

/-- The sections make up the same draft in any order. -/
theorem foldlM_perm (order : fs.Perm es) (takes : ∀ e ∈ es, S.Takes e)
    (distinct : (es.map Entry.part).Nodup) :
    (fs.map Entry.piece).foldlM S.add S.blank = .ok (es.foldl S.put S.blank) := by
  have distinct' : (fs.map Entry.part).Nodup := (order.map _).nodup_iff.2 distinct
  rw [S.foldlM_new (fun e he => takes e (order.mem_iff.1 he)) distinct' fun e _ => S.lacks_blank _,
    S.foldl_perm order distinct']

/-- A second section of a part is refused, whatever is behind it. -/
theorem foldlM_again (takes : ∀ e ∈ es, S.Takes e) (distinct : (es.map Entry.part).Nodup)
    {s : Section} (given : s ∈ es.map Entry.part) {p : Piece} (named : Names s p)
    (rest : List Piece) :
    (es.map Entry.piece ++ p :: rest).foldlM S.add S.blank =
      .error (S.wrap (.duplicateSection s)) := by
  have filled : ¬S.Lacks (es.foldl S.put S.blank) s := by
    rw [S.lacks_foldl takes, not_and_not_right]
    intro _
    exact given
  rw [List.foldlM_append, S.foldlM_new takes distinct fun e _ => S.lacks_blank _, ok_bind,
    List.foldlM_cons, S.add_again named filled]
  rfl

end Slots

/-! ## The two kinds of drafts -/

theorem addPiece_entry {d : Draft} {e : Entry} (writable : e.Writable) (lacks : d.Lacks e.part) :
    addPiece d e.piece = .ok (d.put e) := by
  have one {c : Coord} (h : c.Writable) : ∀ d ∈ [c], d.Writable := by simpa using h
  cases e with
  | map tiles => exact addPiece_map lacks writable
  | origin c | puffle c | bag c =>
    have new : _ = none := lacks
    rw [Entry.piece, addPiece_cells (by simp) (one writable)]
    simp only [new, fillCell_none, ok_bind]
    rfl
  | keys cs | blocks cs =>
    have new : _ = [] := lacks
    rw [Entry.piece, addPiece_cells writable.1 writable.2]
    simp only [new, fillCells_nil, ok_bind]
    rfl

theorem fillMap_again {slot : Option TileMap} {body : List Char} {tiles : TileMap}
    (read : readMap body = .ok tiles) (given : slot ≠ none) :
    fillMap slot body = .error (.duplicateSection .map) := by
  rw [fillMap, read, ok_bind, if_pos (Option.isSome_iff_ne_none.2 given)]

theorem fillCell_again {slot : Option Coord} (given : slot ≠ none) (part : Section)
    (line : List Char) (cells : List Coord) :
    fillCell part slot line cells = .error (.duplicateSection part) := by
  unfold fillCell
  rw [if_pos (Option.isSome_iff_ne_none.2 given)]

theorem fillCells_again {slot : List Coord} (given : slot ≠ []) (part : Section)
    (cells : List Coord) : fillCells part slot cells = .error (.duplicateSection part) := by
  rw [fillCells, if_pos given]

theorem addPiece_again {d : Draft} {s : Section} {p : Piece} (named : Names s p)
    (given : ¬d.Lacks s) : addPiece d p = .error (.duplicateSection s) := by
  cases named with
  | map read =>
    rw [addPiece, fillMap_again read given]
    rfl
  | cells not_map read =>
    simp only [addPiece, addDirective, read, ok_bind, Section.ofName?_name]
    cases s with
    | map => exact absurd rfl not_map
    | origin | puffle | bag =>
      rw [fillCell_again given]
      rfl
    | keys | blocks =>
      rw [fillCells_again given]
      rfl

def baseSlots : Slots Draft where
  blank := .blank
  add := addPiece
  put := Draft.put
  Lacks := Draft.Lacks
  Takes := Entry.Writable
  wrap := id
  lacks_blank s := by cases s <;> rfl
  lacks_put := Draft.lacks_put
  put_comm := Draft.put_comm
  add_new := addPiece_entry
  add_again := addPiece_again

theorem addPatchPiece_entry (n : Nat) {d : PatchDraft} {e : Entry}
    (takes : e.InPatch ∧ e.Writable) (lacks : d.Lacks e.part) :
    addPatchPiece n d e.piece = .ok (d.put e) := by
  obtain ⟨allowed, writable⟩ := takes
  cases e with
  | map tiles =>
    have new : d.map = none := lacks
    simp only [Entry.piece, addPatchPiece, fillMap, readMap_writeMap writable, new]
    rfl
  | origin c =>
    have new : d.origin = none := lacks
    have one : ∀ d ∈ [c], d.Writable := List.forall_mem_singleton.2 writable
    simp only [Entry.piece, cellPiece, addPatchPiece, addPatchDirective,
      readDirective_cellLine (by simp) one, Section.ofName?_name, new, fillCell_none, ok_bind]
    rfl
  | _ => simp [Entry.InPatch, Entry.part] at allowed

theorem addPatchPiece_again (n : Nat) {d : PatchDraft} {s : Section} {p : Piece}
    (named : Names s p) (given : ¬d.Lacks s) :
    addPatchPiece n d p = .error (.inPatch n (.duplicateSection s)) := by
  cases named with
  | map read =>
    rw [addPatchPiece, fillMap_again read given]
    rfl
  | cells not_map read =>
    simp only [addPatchPiece, addPatchDirective, read, ok_bind, Section.ofName?_name]
    cases s with
    | origin =>
      rw [fillCell_again given]
      rfl
    | map => exact absurd rfl not_map
    | puffle | keys | blocks | bag => exact absurd trivial given

/-- The draft of patch number `n`. -/
def patchSlots (n : Nat) : Slots PatchDraft where
  blank := .blank
  add := addPatchPiece n
  put := PatchDraft.put
  Lacks := PatchDraft.Lacks
  Takes e := e.InPatch ∧ e.Writable
  wrap := .inPatch n
  lacks_blank s := by cases s <;> trivial
  lacks_put takes := PatchDraft.lacks_put takes.1
  put_comm := PatchDraft.put_comm
  add_new := addPatchPiece_entry n
  add_again := addPatchPiece_again n

/-! ## The sections of a level -/

def baseEntries (l : Level) : List Entry :=
  [.map l.tiles] ++
  (if l.origin = .zero then [] else [.origin l.origin]) ++
  [.puffle l.spawn] ++
  (if l.keys = [] then [] else [.keys l.keys]) ++
  (if l.blocks = [] then [] else [.blocks l.blocks]) ++
  l.bag.toList.map .bag

def patchEntries (p : Patch) : List Entry := [.map p.tiles, .origin p.origin]

theorem baseSections_eq (l : Level) : baseSections l = (baseEntries l).map Entry.text := by
  simp only [baseSections, baseEntries, List.map_append, List.map_map, apply_ite (List.map Entry.text)]
  rfl

theorem basePieces_eq (l : Level) : basePieces l = (baseEntries l).map Entry.piece := by
  simp only [basePieces, baseEntries, List.map_append, List.map_map, apply_ite (List.map Entry.piece)]
  rfl

theorem patchSections_eq (p : Patch) : patchSections p = (patchEntries p).map Entry.text := rfl

theorem writable_of_mem_baseEntries {l : Level} (h : l.Writable) :
    ∀ e ∈ baseEntries l, e.Writable := by
  have optional {b : Prop} [Decidable b] {e : Entry} (given : ¬b → e.Writable) :
      ∀ f ∈ if b then [] else [e], f.Writable := by
    split
    · nofun
    · rename_i some
      simpa using given some
  simp only [baseEntries, List.forall_mem_append, List.forall_mem_singleton]
  refine ⟨⟨⟨⟨⟨h.tiles, optional fun _ => h.origin⟩, h.spawn⟩, optional fun ne => ⟨ne, h.keys⟩⟩,
    optional fun ne => ⟨ne, h.blocks⟩⟩, ?_⟩
  intro e he
  obtain ⟨c, hc, rfl⟩ := List.mem_map.1 he
  exact h.bag c (Option.mem_toList.1 hc)

theorem takes_patchEntries {l : Level} (h : l.Writable) {p : Patch} (hp : p ∈ l.patches) :
    ∀ e ∈ patchEntries p, e.InPatch ∧ e.Writable := by
  obtain ⟨tiles, origin⟩ := h.patches p hp
  simp only [patchEntries, List.forall_mem_cons]
  exact ⟨⟨.inl rfl, tiles⟩, ⟨.inr rfl, origin⟩, nofun⟩

/-- No part is among the sections twice. -/
theorem nodup_baseEntries (l : Level) : ((baseEntries l).map Entry.part).Nodup := by
  rw [baseEntries]
  split <;> split <;> split <;> cases l.bag <;> simp [Entry.part]

theorem nodup_patchEntries (p : Patch) : ((patchEntries p).map Entry.part).Nodup := by
  simp [patchEntries, Entry.part]

/-- What the sections of the base part make up. -/
def baseDraft (l : Level) : Draft where
  map := some l.tiles
  origin := if l.origin = .zero then none else some l.origin
  spawn := some l.spawn
  keys := l.keys
  blocks := l.blocks
  bag := l.bag
  patches := []

theorem foldl_put_baseEntries (l : Level) :
    (baseEntries l).foldl Draft.put .blank = baseDraft l := by
  simp only [baseEntries, baseDraft, List.foldl_append, List.foldl_cons, List.foldl_nil]
  split <;> split <;> split <;> cases l.bag <;> simp_all [Draft.put, Draft.blank]

theorem describes_baseDraft (l : Level) :
    ({ baseDraft l with patches := l.patches.map Patch.draft } : Draft).Describes l := by
  refine ⟨rfl, ?_, rfl, rfl, rfl, rfl, rfl⟩
  by_cases zero : l.origin = .zero
  · simp [baseDraft, zero]
  · simp [baseDraft, zero]

theorem foldlM_baseEntries {l : Level} (h : l.Writable) {es : List Entry}
    (order : es.Perm (baseEntries l)) :
    (es.map Entry.piece).foldlM addPiece .blank = .ok (baseDraft l) := by
  rw [← foldl_put_baseEntries]
  exact baseSlots.foldlM_perm order (writable_of_mem_baseEntries h) (nodup_baseEntries l)

theorem foldlM_patchEntries {l : Level} (h : l.Writable) {p : Patch} (hp : p ∈ l.patches)
    {es : List Entry} (order : es.Perm (patchEntries p)) (n : Nat) :
    (es.map Entry.piece).foldlM (addPatchPiece n) .blank = .ok p.draft :=
  (patchSlots n).foldlM_perm order (takes_patchEntries h hp) (nodup_patchEntries p)

/-- The sections of each patch, in an order of their own. -/
def Rearranged (ps : List Patch) (parts : List (List Entry)) : Prop :=
  List.Forall₂ (fun p es => es.Perm (patchEntries p)) ps parts

theorem rearranged_self (ps : List Patch) : Rearranged ps (ps.map patchEntries) := by
  rw [Rearranged, List.forall₂_map_right_iff, List.forall₂_same]
  intro p _
  exact .refl _

theorem readPatches_entries {l : Level} (h : l.Writable) {ps : List Patch} (all : ps ⊆ l.patches)
    {parts : List (List Entry)} (patches : Rearranged ps parts) (n : Nat)
    (rest : List (List Piece)) :
    readPatches n (parts.map (List.map Entry.piece) ++ rest) =
      (do let more ← readPatches (n + ps.length) rest; return ps.map Patch.draft ++ more) := by
  induction patches generalizing n with
  | nil => exact (bind_pure _).symm
  | cons first patches ih =>
    rw [List.cons_subset] at all
    rw [List.map_cons, List.cons_append, readPatches, foldlM_patchEntries h all.1 first, ok_bind,
      ih all.2, List.length_cons, Nat.add_assoc, Nat.add_comm 1]
    simp

/-! ## Whole levels -/

def altLine : List Char := "alt\n".toList

theorem scan_entry (e : Entry) (s : List Char) : scan (e.text ++ s) = e.piece :: scan s := by
  cases e with
  | map tiles => exact scan_mapSection tiles s
  | _ => exact scan_cellSection (by decide) _ s

theorem scan_entries (es : List Entry) (s : List Char) :
    scan ((es.map Entry.text).flatten ++ s) = es.map Entry.piece ++ scan s := by
  induction es with
  | nil => rfl
  | cons e es ih =>
    rw [List.map_cons, List.flatten_cons, List.append_assoc, scan_entry, ih, List.map_cons,
      List.cons_append]

theorem scan_patches (ps : List Patch) (s : List Char) :
    scan ((ps.flatMap fun p => "alt\n".toList ++ (patchSections p).flatten) ++ s) =
      (ps.map patchPieces).flatMap (.alt :: ·) ++ scan s := by
  induction ps with
  | nil => rfl
  | cons p ps ih =>
    rw [List.flatMap_cons, List.append_assoc, List.append_assoc, scan_alt, patchSections_eq,
      scan_entries, ih, List.map_cons, List.flatMap_cons, List.append_assoc]
    rfl

theorem scan_writeLevel (l : Level) (s : List Char) :
    scan (writeLevel l ++ s) =
      basePieces l ++ (l.patches.map patchPieces).flatMap (.alt :: ·) ++ scan s := by
  rw [writeLevel, List.append_assoc, baseSections_eq, scan_entries, scan_patches, basePieces_eq,
    List.append_assoc]

theorem ne_alt_of_entries (es : List Entry) : ∀ p ∈ es.map Entry.piece, (p == .alt) = false := by
  rw [List.forall_mem_map]
  intro e _
  cases e <;> simp [Entry.piece, cellPiece]

theorem splitWhere_entries (es : List Entry) (parts : List (List Entry)) :
    splitWhere (· == .alt)
        (es.map Entry.piece ++ (parts.map (List.map Entry.piece)).flatMap (.alt :: ·)) =
      es.map Entry.piece :: parts.map (List.map Entry.piece) := by
  apply splitWhere_flatMap (by decide) (ne_alt_of_entries es)
  rw [List.forall_mem_map]
  intro fs _
  exact ne_alt_of_entries fs

/-- Sections in any order make up the level that they are taken from, or are refused for the first
bound that it breaks. -/
theorem readLevel_of_entries {l : Level} (h : l.Writable) {s : List Char} {es : List Entry}
    {parts : List (List Entry)}
    (scanned : scan s =
      es.map Entry.piece ++ (parts.map (List.map Entry.piece)).flatMap (.alt :: ·))
    (order : es.Perm (baseEntries l)) (patches : Rearranged l.patches parts) :
    readLevel s = (do Bound.verdict l.bounds; return l) := by
  have read := readPatches_entries h (List.Subset.refl _) patches 1 []
  rw [List.append_nil, readPatches, ok_bind, List.append_nil] at read
  rw [readLevel, readDraft, scanned, splitWhere_entries, ← (describes_baseDraft l).build_eq]
  dsimp only [List.headD_cons, List.tail_cons]
  rw [foldlM_baseEntries h order, ok_bind, read]
  rfl

theorem map_patchPieces (ps : List Patch) :
    ps.map patchPieces = (ps.map patchEntries).map (List.map Entry.piece) := by
  rw [List.map_map]
  rfl

/-- A written level is read as itself, or refused for the first bound that it breaks. -/
theorem readLevel_writeLevel {l : Level} (h : l.Writable) :
    readLevel (writeLevel l) = (do Bound.verdict l.bounds; return l) := by
  have scanned : scan (writeLevel l) = (baseEntries l).map Entry.piece ++
      ((l.patches.map patchEntries).map (List.map Entry.piece)).flatMap (.alt :: ·) := by
    have whole := scan_writeLevel l []
    rw [List.append_nil, scan_nil, List.append_nil] at whole
    rw [whole, basePieces_eq, map_patchPieces]
  exact readLevel_of_entries h scanned (.refl _) (rearranged_self l.patches)

end LevelText
end IceMaze
