import IceMaze.Level.Record
import IceMaze.Proofs.Level.Placement
import IceMaze.Proofs.Level.RoundTrip

/-!
The levels that can come out of a file are the well placed ones (`accepted_iff_wellPlaced`).

A reader only gets its maps from `TileMap.ofRows`, so that no map is empty, and only gets its level
from `Draft.build`, which checks the bounds. A well placed level comes out of its own text.
-/

namespace IceMaze

/-- Some reader has returned the level. -/
inductive Level.Accepted : Level → Prop where
  | text {s l} (read : ofText s = .ok l) : Accepted l
  | textFile {s ls l} (read : listOfText s = .ok ls) (mem : l ∈ ls) : Accepted l
  | json {s l} (read : ofJsonText s = .ok l) : Accepted l
  | jsonFile {s ls l} (read : listOfJsonText s = .ok ls) (mem : l ∈ ls) : Accepted l

/-! ## Maps that have been read -/

theorem TileMap.proper_of_ofRows {rows : List (List TileKind)} {m : TileMap}
    (h : ofRows rows = .ok m) : m.Proper := by
  unfold ofRows at h
  dsimp only at h
  split at h
  · cases h
  · rename_i width_pos
    split at h
    · cases h
    · split at h
      · rename_i fits
        cases h
        refine ⟨Nat.pos_of_ne_zero width_pos, ?_, fits⟩
        cases rows with
        | nil => simp at width_pos
        | cons row rows => simp
      · cases h

/-- The map of a draft, if it has one, is proper. -/
def MapProper (map : Option TileMap) : Prop := ∀ m, map = some m → m.Proper

theorem foldlM_keeps {ε α β : Type} {P : β → Prop} {f : β → α → Except ε β}
    (keeps : ∀ b a b', f b a = .ok b' → P b → P b') {as : List α} {b b' : β}
    (h : as.foldlM f b = .ok b') (hb : P b) : P b' := by
  induction as generalizing b with
  | nil =>
    cases h
    exact hb
  | cons a as ih =>
    rw [List.foldlM_cons, bind_eq_ok] at h
    obtain ⟨c, first, rest⟩ := h
    exact ih rest (keeps b a c first hb)

namespace LevelText

theorem proper_of_readMap {body : List Char} {m : TileMap} (h : readMap body = .ok m) :
    m.Proper := by
  obtain ⟨_, _, h⟩ := bind_eq_ok.1 h
  exact TileMap.proper_of_ofRows h

theorem proper_of_fillMap {slot : Option TileMap} {body : List Char} {m : TileMap}
    (h : fillMap slot body = .ok m) : m.Proper := by
  obtain ⟨tiles, read, h⟩ := bind_eq_ok.1 h
  split at h
  · cases h
  · cases h
    exact proper_of_readMap read

theorem map_of_addDirective {d d' : Draft} {line : List Char} (h : addDirective d line = .ok d') :
    d'.map = d.map := by
  obtain ⟨⟨name, cells⟩, _, h⟩ := bind_eq_ok.1 h
  dsimp only at h
  split at h <;> first
    | cases h
    | obtain ⟨_, _, h⟩ := bind_eq_ok.1 h
      cases h
      rfl

theorem mapProper_of_addPiece {d d' : Draft} {p : Piece} (h : addPiece d p = .ok d')
    (hd : MapProper d.map) : MapProper d'.map := by
  cases p with
  | map body =>
    obtain ⟨tiles, filled, h⟩ := bind_eq_ok.1 h
    cases h
    rintro m ⟨⟩
    exact proper_of_fillMap filled
  | directive line => exact map_of_addDirective h ▸ hd
  | unterminated => cases h
  | alt =>
    cases h
    exact hd

theorem map_of_addPatchDirective {d d' : PatchDraft} {line : List Char}
    (h : addPatchDirective d line = .ok d') : d'.map = d.map := by
  obtain ⟨⟨name, cells⟩, _, h⟩ := bind_eq_ok.1 h
  dsimp only at h
  split at h
  · obtain ⟨_, _, h⟩ := bind_eq_ok.1 h
    cases h
    rfl
  · cases h

theorem mapProper_of_addPatchPiece {n : Nat} {d d' : PatchDraft} {p : Piece}
    (h : addPatchPiece n d p = .ok d') (hd : MapProper d.map) : MapProper d'.map := by
  cases p with
  | map body =>
    obtain ⟨tiles, filled, h⟩ := bind_eq_ok.1 h
    cases h
    rintro m ⟨⟩
    exact proper_of_fillMap (mapError_eq_ok.1 filled)
  | directive line => exact map_of_addPatchDirective (mapError_eq_ok.1 h) ▸ hd
  | unterminated => cases h
  | alt =>
    cases h
    exact hd

theorem mapProper_of_readPatches {n : Nat} {parts : List (List Piece)} {ds : List PatchDraft}
    (h : readPatches n parts = .ok ds) : ∀ d ∈ ds, MapProper d.map := by
  induction parts generalizing n ds with
  | nil =>
    cases h
    nofun
  | cons pieces parts ih =>
    obtain ⟨d, read, h⟩ := bind_eq_ok.1 h
    obtain ⟨rest, read_rest, h⟩ := bind_eq_ok.1 h
    cases h
    refine List.forall_mem_cons.2 ⟨?_, ih read_rest⟩
    exact foldlM_keeps (P := fun d => MapProper d.map) (fun _ _ _ => mapProper_of_addPatchPiece)
      read nofun

end LevelText

theorem Draft.wellPlaced_of_build {d : Draft} {l : Level} (base : MapProper d.map)
    (patches : ∀ p ∈ d.patches, MapProper p.map) (h : d.build = .ok l) : l.WellPlaced := by
  have describes := describes_of_build h
  have tiles : l.HasTiles := by
    refine ⟨⟨(base _ describes.map).1, (base _ describes.map).2.1⟩, fun p hp => ?_⟩
    have proper : p.tiles.Proper := by
      refine patches p.draft ?_ p.tiles rfl
      rw [describes.patches]
      exact List.mem_map_of_mem hp
    exact ⟨proper.1, proper.2.1⟩
  rw [describes.build_eq, bind_eq_ok] at h
  obtain ⟨_, kept, _⟩ := h
  exact (Level.wellPlaced_iff tiles).2 (Bound.verdict_eq_ok.1 kept)

namespace LevelText

theorem wellPlaced_of_readLevel {s : List Char} {l : Level} (h : readLevel s = .ok l) :
    l.WellPlaced := by
  obtain ⟨d, read, built⟩ := bind_eq_ok.1 h
  obtain ⟨base, read_base, read⟩ := bind_eq_ok.1 read
  obtain ⟨patches, read_patches, read⟩ := bind_eq_ok.1 read
  cases read
  refine Draft.wellPlaced_of_build ?_ (mapProper_of_readPatches read_patches) built
  exact foldlM_keeps (P := fun d => MapProper d.map) (fun _ _ _ => mapProper_of_addPiece)
    read_base nofun

theorem wellPlaced_of_readChunks {n : Nat} {chunks : List (List Char)} {ls : List Level}
    (h : readChunks n chunks = .ok ls) : ∀ l ∈ ls, l.WellPlaced := by
  induction chunks generalizing n ls with
  | nil =>
    cases h
    nofun
  | cons chunk chunks ih =>
    obtain ⟨l, read, h⟩ := bind_eq_ok.1 h
    obtain ⟨rest, read_rest, h⟩ := bind_eq_ok.1 h
    cases h
    exact List.forall_mem_cons.2 ⟨wellPlaced_of_readLevel (mapError_eq_ok.1 read), ih read_rest⟩

end LevelText

namespace LevelRecord

theorem mapProper_of_decodeMap? {rows : Option (List (List Int))} {map : Option TileMap}
    (h : decodeMap? rows = .ok map) : MapProper map := by
  cases rows with
  | none =>
    cases h
    nofun
  | some rows =>
    obtain ⟨m, decoded, h⟩ := bind_eq_ok.1 h
    obtain ⟨kinds, _, made⟩ := bind_eq_ok.1 decoded
    cases h
    rintro _ ⟨⟩
    exact TileMap.proper_of_ofRows made

theorem mapProper_of_decodePatches {n : Nat} {ps : List PatchRecord} {ds : List PatchDraft}
    (h : decodePatches n ps = .ok ds) : ∀ d ∈ ds, MapProper d.map := by
  induction ps generalizing n ds with
  | nil =>
    cases h
    nofun
  | cons p ps ih =>
    obtain ⟨map, decoded, h⟩ := bind_eq_ok.1 h
    obtain ⟨rest, decoded_rest, h⟩ := bind_eq_ok.1 h
    cases h
    exact List.forall_mem_cons.2
      ⟨mapProper_of_decodeMap? (mapError_eq_ok.1 decoded), ih decoded_rest⟩

theorem wellPlaced_of_readLevel {v : Json} {l : Level} (h : readLevel v = .ok l) :
    l.WellPlaced := by
  unfold readLevel at h
  split at h
  · obtain ⟨d, read, built⟩ := bind_eq_ok.1 h
    obtain ⟨map, decoded, read⟩ := bind_eq_ok.1 read
    obtain ⟨patches, decoded_patches, read⟩ := bind_eq_ok.1 read
    cases read
    exact Draft.wellPlaced_of_build (mapProper_of_decodeMap? decoded)
      (mapProper_of_decodePatches decoded_patches) built
  · cases h

theorem wellPlaced_of_readLevels {n : Nat} {vs : List Json} {ls : List Level}
    (h : readLevels n vs = .ok ls) : ∀ l ∈ ls, l.WellPlaced := by
  induction vs generalizing n ls with
  | nil =>
    cases h
    nofun
  | cons v vs ih =>
    obtain ⟨l, read, h⟩ := bind_eq_ok.1 h
    obtain ⟨rest, read_rest, h⟩ := bind_eq_ok.1 h
    cases h
    exact List.forall_mem_cons.2 ⟨wellPlaced_of_readLevel (mapError_eq_ok.1 read), ih read_rest⟩

end LevelRecord

namespace Level

/-- All that a well placed level holds can be written. -/
theorem WellPlaced.writable {l : Level} (h : l.WellPlaced) : l.Writable := by
  have nonneg := h.origin_nonneg
  have onBoard {c : Coord} (hc : c.OnBoard) : c.Writable := by
    rw [Coord.onBoard_iff] at hc
    simp only [Coord.Writable, Coord.InRange]
    omega
  have inside {c : Coord} (hc : Coord.Within l.origin l.corner c) : c.Writable :=
    onBoard (h.onBoard hc)
  have proper {m : TileMap} {origin : Coord} (start : 0 ≤ origin.x ∧ 0 ≤ origin.y)
      (fits : FitsAt m origin) : m.Proper ∧ origin.Writable := by
    obtain ⟨width_pos, height_pos, x_le, y_le⟩ := fits
    simp only [TileMap.corner] at x_le y_le
    refine ⟨⟨width_pos, height_pos, ?_, ?_⟩, onBoard (Coord.onBoard_iff.2 ?_)⟩ <;>
      simp only [boardWidth, boardHeight] at * <;> omega
  exact {
    tiles := (proper nonneg h.fits).1
    origin := (proper nonneg h.fits).2
    spawn := inside h.spawn_within
    keys := fun c hc => inside (h.keys_within c hc)
    blocks := fun c hc => inside (h.blocks_within c hc)
    bag := fun c hc => inside (h.bag_within c hc)
    patches := fun p hp => by
      have after := h.patches_after p hp
      exact proper ⟨by omega, by omega⟩ (h.patches_fit p hp) }

theorem Accepted.wellPlaced {l : Level} (h : l.Accepted) : l.WellPlaced := by
  cases h with
  | text read => exact LevelText.wellPlaced_of_readLevel read
  | textFile read mem => exact LevelText.wellPlaced_of_readChunks read l mem
  | json read =>
    unfold ofJsonText at read
    split at read
    · exact LevelRecord.wellPlaced_of_readLevel read
    · cases read
  | jsonFile read mem =>
    unfold listOfJsonText at read
    split at read
    · exact LevelRecord.wellPlaced_of_readLevels read l mem
    · cases read

theorem accepted_iff_wellPlaced {l : Level} : l.Accepted ↔ l.WellPlaced := by
  refine ⟨Accepted.wellPlaced, fun placed => .text (s := l.toText) ?_⟩
  rw [ofText, toText, String.toList_ofList]
  exact LevelText.readLevel_of_wellPlaced placed.writable placed

/-! ## Deciding -/

instance (m : TileMap) (origin : Coord) : Decidable (FitsAt m origin) :=
  inferInstanceAs (Decidable (_ ∧ _))

instance (l : Level) : Decidable l.WellPlaced :=
  decidable_of_iff
    ((0 ≤ l.origin.x ∧ 0 ≤ l.origin.y) ∧ FitsAt l.tiles l.origin ∧
      Coord.Within l.origin l.corner l.spawn ∧
      (∀ c ∈ l.keys, Coord.Within l.origin l.corner c) ∧
      (∀ c ∈ l.blocks, Coord.Within l.origin l.corner c) ∧
      (∀ c ∈ l.bag, Coord.Within l.origin l.corner c) ∧
      (∀ p ∈ l.patches, l.origin.x ≤ p.origin.x ∧ l.origin.y ≤ p.origin.y) ∧
      ∀ p ∈ l.patches, FitsAt p.tiles p.origin)
    ⟨fun ⟨origin, fits, spawn, keys, blocks, bag, after, patches⟩ =>
        ⟨origin, fits, spawn, keys, blocks, bag, after, patches⟩,
      fun h => ⟨h.origin_nonneg, h.fits, h.spawn_within, h.keys_within, h.blocks_within,
        h.bag_within, h.patches_after, h.patches_fit⟩⟩

/-- Whether a level has a text is decided by its measures alone. -/
instance (l : Level) : Decidable l.Accepted := decidable_of_iff l.WellPlaced
  accepted_iff_wellPlaced.symm

end Level
end IceMaze
