import IceMaze.Proofs.Level.Acceptance
import IceMaze.Proofs.Level.Filler
import IceMaze.Proofs.Level.Sections

/-!
Level texts with their sections in another order.

`Spaced` is a text of given sections with filler between them. Each section of a level is scanned
by itself (`Scans`), so that filler is passed over wherever it stands (`Spaced.scan`); the order of
the pieces does not count either, and `sections_in_any_order` puts the two together.
-/

namespace IceMaze

namespace LevelText

open Text Piece

/-- The sections in this order, with filler in front of each and behind the last. -/
inductive Spaced : List (List Char) → List Char → Prop where
  | last {s} (filler : LastFiller s) : Spaced [] s
  | next {f sec secs s} (filler : Filler f) (rest : Spaced secs s) :
      Spaced (sec :: secs) (f ++ sec ++ s)

/-- The section is scanned as the piece, whatever follows it. -/
def Scans (sec : List Char) (p : Piece) : Prop := ∀ s, scan (sec ++ s) = p :: scan s

theorem Spaced.scan {secs : List (List Char)} {s : List Char} (text : Spaced secs s)
    {ps : List Piece} (pieces : List.Forall₂ Scans secs ps) : Piece.scan s = ps := by
  induction text generalizing ps with
  | last filler =>
    cases pieces
    exact filler.scan
  | next filler rest ih =>
    cases pieces with
    | cons first more => rw [List.append_assoc, filler.scan, first, ih more]

theorem scans_entries (es : List Entry) :
    List.Forall₂ Scans (es.map Entry.text) (es.map Entry.piece) := by
  rw [List.forall₂_map_left_iff, List.forall₂_map_right_iff, List.forall₂_same]
  intro e _
  exact scan_entry e

theorem scans_parts (parts : List (List Entry)) :
    List.Forall₂ Scans ((parts.map (List.map Entry.text)).flatMap (altLine :: ·))
      ((parts.map (List.map Entry.piece)).flatMap (.alt :: ·)) := by
  induction parts with
  | nil => exact .nil
  | cons es parts ih =>
    simp only [List.map_cons, List.flatMap_cons, List.cons_append]
    apply List.Forall₂.cons scan_alt
    exact List.rel_append (scans_entries es) ih

/-- Texts of sections in another order are those of the same sections. -/
theorem exists_entries {secs : List (List Char)} {es : List Entry}
    (order : secs.Perm (es.map Entry.text)) :
    ∃ fs : List Entry, secs = fs.map Entry.text ∧ fs.Perm es := by
  have composed := congrFun (congrFun (List.eq_map_comp_perm Entry.text) secs) es
  exact composed.mpr order

theorem exists_rearranged {ps : List Patch} {parts : List (List (List Char))}
    (h : List.Forall₂ (fun p secs => secs.Perm (patchSections p)) ps parts) :
    ∃ fss : List (List Entry), parts = fss.map (List.map Entry.text) ∧ Rearranged ps fss := by
  induction h with
  | nil => exact ⟨[], rfl, .nil⟩
  | cons first rest ih =>
    obtain ⟨fss, rfl, orders⟩ := ih
    rw [patchSections_eq] at first
    obtain ⟨fs, rfl, order⟩ := exists_entries first
    exact ⟨fs :: fss, rfl, .cons order orders⟩

end LevelText

open LevelText

/-- A level is read from its sections in any order, with the map and the origin of each patch in
any order behind its `alt`, and with white space and comments in front of the first section, between
sections and behind the last one. -/
theorem sections_in_any_order {l : Level} {base : List (List Char)}
    {parts : List (List (List Char))} {s : List Char} (placed : l.WellPlaced)
    (order : base.Perm (baseSections l))
    (patches : List.Forall₂ (fun p part => part.Perm (patchSections p)) l.patches parts)
    (text : Spaced (base ++ parts.flatMap (altLine :: ·)) s) :
    Level.ofText (String.ofList s) = .ok l := by
  rw [baseSections_eq] at order
  obtain ⟨es, rfl, base_order⟩ := exists_entries order
  obtain ⟨fss, rfl, patch_orders⟩ := exists_rearranged patches
  have scanned := text.scan (List.rel_append (scans_entries es) (scans_parts fss))
  have writable := placed.writable
  have kept := Bound.verdict_eq_ok.2 ((Level.wellPlaced_iff writable.hasTiles).1 placed)
  rw [Level.ofText, String.toList_ofList,
    readLevel_of_entries writable scanned base_order patch_orders, kept]
  rfl

/-- Two tiles of ice, with a bag on the second one and water in its place. -/
def lagoon : Level where
  origin := .zero
  spawn := .zero
  tiles := .filled 2 1 .ice
  keys := []
  blocks := []
  bag := some ⟨1, 0⟩
  patches := [⟨⟨1, 0⟩, .filled 1 1 .water⟩]

/-- The bag comes first and the map last, and the patch starts with its origin. -/
theorem sections_in_any_order_in_lagoon :
    lagoon.WellPlaced ∧ Level.ofText
      "# bag\nbag(1,0)\n\n  puffle(0,0)\nmap\n2ice;\nalt\norigin(1,0)\n\tmap\nwater;\n# end" =
        .ok lagoon := by
  have placed : lagoon.WellPlaced := by decide
  have order : [cellSection .bag [⟨1, 0⟩], cellSection .puffle [.zero],
      mapSection (.filled 2 1 .ice)].Perm (baseSections lagoon) :=
    List.reverse_perm [mapSection (.filled 2 1 .ice), cellSection .puffle [.zero],
      cellSection .bag [⟨1, 0⟩]]
  have patches : List.Forall₂ (fun p part => part.Perm (patchSections p)) lagoon.patches
      [[cellSection .origin [⟨1, 0⟩], mapSection (.filled 1 1 .water)]] :=
    .cons (.swap _ _ _) .nil
  have text : Spaced ([cellSection .bag [⟨1, 0⟩], cellSection .puffle [.zero],
      mapSection (.filled 2 1 .ice)] ++ [[cellSection .origin [⟨1, 0⟩],
        mapSection (.filled 1 1 .water)]].flatMap (altLine :: ·)) _ :=
    .next (@Filler.comment " bag".toList [] (by decide) .nil) <|
    .next (.of_blank (s := "\n  ".toList) (by decide)) <|
    .next .nil <| .next .nil <| .next .nil <|
    .next (.of_blank (s := "\t".toList) (by decide)) <|
    .last (@LastFiller.comment [] " end".toList .nil (by decide))
  have read := sections_in_any_order placed order patches text
  refine ⟨placed, ?_⟩
  rw [← read]
  congr 1
  decide +kernel

end IceMaze
