import IceMaze.Level.Draft

/-!
The bounds that a level must keep, in the order in which they are checked.

`Level.bounds` lists them; a level is well placed if it keeps them all (`wellPlaced_iff`), and a
draft that describes a level is built into it or refused for the first bound that it breaks
(`build_eq`).
-/

namespace IceMaze

/-- A rectangle of cells that must lie within another one. -/
structure Bound where
  part : Section
  /-- The patch whose place it is, if it is not the level's own. -/
  patch : Option Nat
  cell : Coord
  width : Nat
  height : Nat
  lo : Coord
  hi : Coord

namespace Bound

def Holds (b : Bound) : Prop :=
  b.lo.x ≤ b.cell.x ∧ b.lo.y ≤ b.cell.y ∧
    b.cell.x + b.width ≤ b.hi.x ∧ b.cell.y + b.height ≤ b.hi.y

instance (b : Bound) : Decidable b.Holds := inferInstanceAs (Decidable (_ ∧ _))

def error (b : Bound) : LevelError :=
  match b.patch with
  | none => .outOfBounds b.part b.cell
  | some n => .inPatch n (.outOfBounds b.part b.cell)

/-- A map at its origin, which may not leave the board. -/
def ofMap (patch : Option Nat) (lo origin : Coord) (m : TileMap) : Bound :=
  ⟨.origin, patch, origin, m.width, m.height, lo, .boardEnd⟩

def ofCell (part : Section) (lo hi c : Coord) : Bound := ⟨part, none, c, 1, 1, lo, hi⟩

theorem holds_ofCell {part : Section} {lo hi c : Coord} :
    (ofCell part lo hi c).Holds ↔ Coord.Within lo hi c := Iff.rfl

theorem holds_ofMap {patch : Option Nat} {lo origin : Coord} {m : TileMap} :
    (ofMap patch lo origin m).Holds ↔ Coord.Within lo m.lastOrigin origin := by
  simp only [Holds, ofMap, Coord.Within, Coord.boardEnd, TileMap.lastOrigin]
  omega

/-- The outcome of checks that are made one after the other. -/
def verdict (bs : List Bound) : Except LevelError Unit :=
  match bs.find? fun b => !decide b.Holds with
  | none => .ok ()
  | some b => .error b.error

theorem verdict_append (as bs : List Bound) :
    verdict (as ++ bs) = (do verdict as; verdict bs) := by
  unfold verdict
  rw [List.find?_append]
  cases as.find? fun b => !decide b.Holds <;> rfl

theorem verdict_eq_ok {bs : List Bound} : verdict bs = .ok () ↔ ∀ b ∈ bs, b.Holds := by
  unfold verdict
  cases broken : bs.find? fun b => !decide b.Holds with
  | none => simpa using broken
  | some b =>
    obtain ⟨fails, _⟩ := List.find?_eq_some_iff_append.1 broken
    have hb := List.mem_of_find?_eq_some broken
    simp only [reduceCtorEq, false_iff]
    intro all
    simp [all b hb] at fails

/-- A refusal names the first bound that is broken. -/
theorem verdict_eq_error {bs : List Bound} {e : LevelError} (h : verdict bs = .error e) :
    ∃ kept b rest, bs = kept ++ b :: rest ∧ (∀ a ∈ kept, a.Holds) ∧ ¬b.Holds ∧ e = b.error := by
  unfold verdict at h
  cases broken : bs.find? fun b => !decide b.Holds with
  | none => simp [broken] at h
  | some b =>
    obtain ⟨fails, kept, rest, split, before⟩ := List.find?_eq_some_iff_append.1 broken
    rw [broken] at h
    cases h
    exact ⟨kept, b, rest, split, fun a ha => by simpa using before a ha, by simpa using fails, rfl⟩

end Bound

theorem checkWithin_eq_verdict (part : Section) (lo hi : Coord) (cs : List Coord) :
    checkWithin part lo hi cs = Bound.verdict (cs.map (Bound.ofCell part lo hi)) := by
  induction cs with
  | nil => rfl
  | cons c cs ih =>
    rw [checkWithin, ih]
    by_cases inside : Coord.Within lo hi c
    · simp [Bound.verdict, Bound.holds_ofCell, inside]
    · simp [Bound.verdict, Bound.holds_ofCell, inside]
      rfl

theorem checkWithin_origin (lo origin : Coord) (m : TileMap) :
    checkWithin .origin lo m.lastOrigin [origin] =
      Bound.verdict [Bound.ofMap none lo origin m] := by
  by_cases inside : Coord.Within lo m.lastOrigin origin
  · simp [checkWithin, Bound.verdict, Bound.holds_ofMap, inside]
  · simp [checkWithin, Bound.verdict, Bound.holds_ofMap, inside]
    rfl

namespace Level

def patchBounds (origin : Coord) (n : Nat) : List Patch → List Bound
  | [] => []
  | p :: ps => .ofMap (some n) origin p.origin p.tiles :: patchBounds origin (n + 1) ps

/-- Origin, puffle, keys, blocks, bag and patches. -/
def bounds (l : Level) : List Bound :=
  [.ofMap none .zero l.origin l.tiles] ++
  [.ofCell .puffle l.origin l.corner l.spawn] ++
  l.keys.map (.ofCell .keys l.origin l.corner) ++
  l.blocks.map (.ofCell .blocks l.origin l.corner) ++
  l.bag.toList.map (.ofCell .bag l.origin l.corner) ++
  patchBounds l.origin 1 l.patches

theorem forall_mem_patchBounds {origin : Coord} {n : Nat} {ps : List Patch} :
    (∀ b ∈ patchBounds origin n ps, b.Holds) ↔
      ∀ p ∈ ps, Coord.Within origin p.tiles.lastOrigin p.origin := by
  induction ps generalizing n with
  | nil => simp [patchBounds]
  | cons p ps ih => simp [patchBounds, ih, Bound.holds_ofMap]

/-- No map in the level is empty. -/
def HasTiles (l : Level) : Prop :=
  (0 < l.tiles.width ∧ 0 < l.tiles.height) ∧
    ∀ p ∈ l.patches, 0 < p.tiles.width ∧ 0 < p.tiles.height

theorem within_lastOrigin {m : TileMap} {lo origin : Coord} (h : 0 < m.width ∧ 0 < m.height) :
    Coord.Within lo m.lastOrigin origin ↔
      (lo.x ≤ origin.x ∧ lo.y ≤ origin.y) ∧ FitsAt m origin := by
  simp only [Coord.Within, TileMap.lastOrigin, FitsAt, TileMap.corner]
  omega

theorem wellPlaced_iff {l : Level} (h : l.HasTiles) : l.WellPlaced ↔ ∀ b ∈ l.bounds, b.Holds := by
  obtain ⟨level, patches⟩ := h
  simp only [bounds, List.forall_mem_append, List.forall_mem_map, forall_mem_patchBounds,
    List.mem_singleton, forall_eq, Bound.holds_ofCell, Bound.holds_ofMap, within_lastOrigin level]
  constructor
  · intro placed
    refine ⟨⟨⟨⟨⟨⟨placed.origin_nonneg, placed.fits⟩, placed.spawn_within⟩, placed.keys_within⟩,
      placed.blocks_within⟩, ?_⟩, fun p hp => ?_⟩
    · simpa using placed.bag_within
    · exact (within_lastOrigin (patches p hp)).2
        ⟨placed.patches_after p hp, placed.patches_fit p hp⟩
  · rintro ⟨⟨⟨⟨⟨⟨nonneg, fits⟩, spawn⟩, keys⟩, blocks⟩, bag⟩, rest⟩
    exact {
      origin_nonneg := nonneg
      fits := fits
      spawn_within := spawn
      keys_within := keys
      blocks_within := blocks
      bag_within := by simpa using bag
      patches_after := fun p hp => ((within_lastOrigin (patches p hp)).1 (rest p hp)).1
      patches_fit := fun p hp => ((within_lastOrigin (patches p hp)).1 (rest p hp)).2 }

/-- A level that is not well placed has a first bound that it breaks. -/
theorem exists_first_broken {l : Level} (tiles : l.HasTiles) (misplaced : ¬l.WellPlaced) :
    ∃ kept b rest, l.bounds = kept ++ b :: rest ∧ (∀ a ∈ kept, a.Holds) ∧ ¬b.Holds ∧
      Bound.verdict l.bounds = .error b.error := by
  cases outcome : Bound.verdict l.bounds with
  | ok _ => exact absurd ((wellPlaced_iff tiles).2 (Bound.verdict_eq_ok.1 outcome)) misplaced
  | error e =>
    obtain ⟨kept, b, rest, split, holds, fails, rfl⟩ := Bound.verdict_eq_error outcome
    exact ⟨kept, b, rest, split, holds, fails, rfl⟩

end Level

/-! ## Drafts -/

def Patch.draft (p : Patch) : PatchDraft := ⟨some p.tiles, some p.origin⟩

/-- The draft lacks nothing that the level has. -/
structure Draft.Describes (d : Draft) (l : Level) : Prop where
  map : d.map = some l.tiles
  origin : d.origin.getD .zero = l.origin
  spawn : d.spawn = some l.spawn
  keys : d.keys = l.keys
  blocks : d.blocks = l.blocks
  bag : d.bag = l.bag
  patches : d.patches = l.patches.map Patch.draft

theorem ok_bind {ε α β : Type} (a : α) (f : α → Except ε β) : (Except.ok a >>= f) = f a := rfl

@[simp] theorem mapError_ok {ε δ α : Type} (f : ε → δ) (a : α) :
    (Except.ok a).mapError f = .ok a := rfl

@[simp] theorem mapError_error {ε δ α : Type} (f : ε → δ) (e : ε) :
    (Except.error e : Except ε α).mapError f = .error (f e) := rfl

theorem mapError_bind {ε δ α β : Type} (f : ε → δ) (x : Except ε α) (g : α → Except ε β) :
    (x >>= g).mapError f = (x.mapError f >>= fun a => (g a).mapError f) := by
  cases x <;> rfl

theorem checkWithin_patch (n : Nat) (lo origin : Coord) (m : TileMap) :
    (checkWithin .origin lo m.lastOrigin [origin]).mapError (.inPatch n) =
      Bound.verdict [.ofMap (some n) lo origin m] := by
  by_cases inside : Coord.Within lo m.lastOrigin origin
  · simp [checkWithin, Bound.verdict, Bound.holds_ofMap, inside]
  · simp [checkWithin, Bound.verdict, Bound.holds_ofMap, inside]
    rfl

theorem PatchDraft.buildAll_draft (origin : Coord) (n : Nat) (ps : List Patch) :
    buildAll origin n (ps.map Patch.draft) =
      (do Bound.verdict (Level.patchBounds origin n ps); return ps) := by
  induction ps generalizing n with
  | nil => rfl
  | cons p ps ih =>
    have built : (p.draft.build origin).mapError (.inPatch n) =
        (do Bound.verdict [.ofMap (some n) origin p.origin p.tiles]; return p) := by
      rw [← checkWithin_patch, PatchDraft.build, Patch.draft, require, require, ok_bind, ok_bind,
        mapError_bind]
      rfl
    have split : Level.patchBounds origin n (p :: ps) =
        [.ofMap (some n) origin p.origin p.tiles] ++ Level.patchBounds origin (n + 1) ps := rfl
    rw [List.map_cons, buildAll, built, ih, split, Bound.verdict_append]
    simp only [bind_assoc, pure_bind]

/-- A level is built if it keeps its bounds, and refused for the first that it breaks. -/
theorem Draft.Describes.build_eq {d : Draft} {l : Level} (h : d.Describes l) :
    d.build = (do Bound.verdict l.bounds; return l) := by
  simp only [Draft.build, h.map, h.origin, h.spawn, h.keys, h.blocks, h.bag, h.patches, require,
    ok_bind, checkWithin_origin]
  simp only [checkWithin_eq_verdict, PatchDraft.buildAll_draft, Level.bounds,
    Bound.verdict_append, bind_assoc, pure_bind]
  rfl

theorem bind_eq_ok {ε α β : Type} {x : Except ε α} {f : α → Except ε β} {b : β} :
    (x >>= f) = .ok b ↔ ∃ a, x = .ok a ∧ f a = .ok b := by
  cases x with
  | error e => exact ⟨nofun, fun ⟨_, h, _⟩ => nomatch h⟩
  | ok a => exact ⟨fun h => ⟨a, rfl, h⟩, fun ⟨_, h, hb⟩ => Except.ok.inj h ▸ hb⟩

theorem bind_eq_error {ε α β : Type} {x : Except ε α} {f : α → Except ε β} {e : ε} :
    (x >>= f) = .error e ↔ x = .error e ∨ ∃ a, x = .ok a ∧ f a = .error e := by
  cases x with
  | error e' =>
    constructor
    · rintro ⟨⟩
      exact .inl rfl
    · rintro (⟨⟨⟩⟩ | ⟨_, ⟨⟩, _⟩)
      rfl
  | ok a =>
    constructor
    · intro h
      exact .inr ⟨a, rfl, h⟩
    · rintro (⟨⟨⟩⟩ | ⟨_, ⟨⟩, h⟩)
      exact h

theorem require_eq_ok {α : Type} {part : Section} {o : Option α} {a : α} :
    require part o = .ok a ↔ o = some a := by
  cases o <;> simp [require]

theorem mapError_eq_ok {ε δ α : Type} {f : ε → δ} {x : Except ε α} {a : α} :
    x.mapError f = .ok a ↔ x = .ok a := by
  cases x <;> simp

theorem PatchDraft.eq_draft_of_buildAll {origin : Coord} {n : Nat} {ds : List PatchDraft}
    {ps : List Patch} (h : buildAll origin n ds = .ok ps) : ds = ps.map Patch.draft := by
  induction ds generalizing n ps with
  | nil =>
    cases h
    rfl
  | cons d ds ih =>
    obtain ⟨p, built, h⟩ := bind_eq_ok.1 h
    obtain ⟨rest, built_rest, h⟩ := bind_eq_ok.1 h
    cases h
    obtain ⟨tiles, map, built⟩ := bind_eq_ok.1 (mapError_eq_ok.1 built)
    obtain ⟨start, placed, built⟩ := bind_eq_ok.1 built
    obtain ⟨_, _, built⟩ := bind_eq_ok.1 built
    cases built
    rw [require_eq_ok] at map placed
    rw [List.map_cons, ← ih built_rest, Patch.draft, ← map, ← placed]

/-- What has been built is what the draft describes. -/
theorem Draft.describes_of_build {d : Draft} {l : Level} (h : d.build = .ok l) :
    d.Describes l := by
  obtain ⟨tiles, map, h⟩ := bind_eq_ok.1 h
  obtain ⟨_, _, h⟩ := bind_eq_ok.1 h
  obtain ⟨spawn, puffle, h⟩ := bind_eq_ok.1 h
  obtain ⟨_, _, h⟩ := bind_eq_ok.1 h
  obtain ⟨_, _, h⟩ := bind_eq_ok.1 h
  obtain ⟨_, _, h⟩ := bind_eq_ok.1 h
  obtain ⟨_, _, h⟩ := bind_eq_ok.1 h
  obtain ⟨patches, built, h⟩ := bind_eq_ok.1 h
  cases h
  exact ⟨require_eq_ok.1 map, rfl, require_eq_ok.1 puffle, rfl, rfl, rfl,
    PatchDraft.eq_draft_of_buildAll built⟩

end IceMaze
