import IceMaze.Proofs.Level.Acceptance
import IceMaze.Proofs.Level.MapText
import Mathlib.Data.List.Flatten

/-!
Which rows make a map.

`TileMap.ofRows` makes the map that has the given rows (`ofRows_eq_ok`), or refuses the rows for
the first thing that is wrong with their shape (`ofRows_eq_error`).
-/

namespace IceMaze

namespace TileMap

/-- What is wrong with rows that make no map: the first of these that applies. -/
inductive Misshapen : List (List TileKind) → LevelError → Prop where
  | empty {rows} (flat : rows.head?.getD [] = []) : Misshapen rows .emptyMap
  /-- Row `i` is the first one that is not as long as the first row. -/
  | uneven {first row : List TileKind} {rest} {i : Nat} (tiled : first ≠ [])
      (here : (first :: rest)[i]? = some row) (other : row.length ≠ first.length)
      (even : ∀ j < i, ∀ r, (first :: rest)[j]? = some r → r.length = first.length) :
      Misshapen (first :: rest)
        (.rowLength i (min row.length first.length) first.length row.length)
  | large {first : List TileKind} {rest} (tiled : first ≠ [])
      (even : ∀ r ∈ rest, r.length = first.length)
      (beyond : ¬Fits first.length (rest.length + 1)) :
      Misshapen (first :: rest) (.tooLarge first.length (rest.length + 1))

variable {rows : List (List TileKind)}

/-- The row that is found is the first uneven one. -/
theorem findIdx?_uneven {width i : Nat} :
    rows.findIdx? (·.length ≠ width) = some i ↔
      ∃ row, rows[i]? = some row ∧ row.length ≠ width ∧
        ∀ j < i, ∀ r, rows[j]? = some r → r.length = width := by
  rw [List.findIdx?_eq_some_iff_getElem]
  constructor
  · rintro ⟨bound, other, before⟩
    refine ⟨rows[i], List.getElem?_eq_getElem bound, by simpa using other, ?_⟩
    intro j hj r hr
    obtain ⟨hlt, rfl⟩ := List.getElem?_eq_some_iff.1 hr
    simpa using before j hj
  · rintro ⟨row, here, other, before⟩
    obtain ⟨bound, rfl⟩ := List.getElem?_eq_some_iff.1 here
    refine ⟨bound, by simpa using other, ?_⟩
    intro j hj
    simpa using before j hj _ (List.getElem?_eq_getElem (hj.trans bound))

theorem findIdx?_even {width : Nat} :
    rows.findIdx? (·.length ≠ width) = none ↔ ∀ r ∈ rows, r.length = width := by
  rw [List.findIdx?_eq_none_iff]
  simp only [decide_eq_false_iff_not, not_not]

theorem rows_of_ofRows {m : TileMap} (h : ofRows rows = .ok m) : m.rows = rows := by
  have proper := proper_of_ofRows h
  unfold ofRows at h
  dsimp only at h
  split at h
  · cases h
  · split at h
    · cases h
    · rename_i even
      split at h
      · cases h
        apply List.eq_iff_flatten_eq.2
        constructor
        · rw [flatten_rows proper]
        · apply List.ext_getElem
          · simp [rows_eq proper]
          · intro i hi hj
            have width := length_of_mem_rows proper (List.getElem_mem (by simpa using hi))
            have same := findIdx?_even.1 even _ (List.getElem_mem (by simpa using hj))
            rw [List.getElem_map, List.getElem_map, width, same]
      · cases h

theorem ofRows_eq_ok {m : TileMap} : ofRows rows = .ok m ↔ m.Proper ∧ m.rows = rows := by
  constructor
  · intro h
    exact ⟨proper_of_ofRows h, rows_of_ofRows h⟩
  · rintro ⟨proper, rfl⟩
    exact ofRows_rows proper

theorem misshapen_of_ofRows {e : LevelError} (h : ofRows rows = .error e) :
    Misshapen rows e := by
  unfold ofRows at h
  dsimp only at h
  cases rows with
  | nil =>
    cases h
    exact .empty rfl
  | cons first rest =>
    split at h
    · rename_i flat
      cases h
      exact .empty (List.length_eq_zero_iff.1 flat)
    · rename_i tiled
      have tiled : first ≠ [] := by
        rintro rfl
        exact tiled rfl
      split at h
      · rename_i i found
        obtain ⟨row, here, other, before⟩ := findIdx?_uneven.1 found
        rw [here] at h
        cases h
        exact .uneven tiled here other before
      · rename_i even
        split at h
        · cases h
        · rename_i beyond
          cases h
          refine .large tiled ?_ beyond
          intro r hr
          exact findIdx?_even.1 even r (List.mem_cons_of_mem _ hr)

theorem ofRows_of_misshapen {e : LevelError} (h : Misshapen rows e) : ofRows rows = .error e := by
  cases h with
  | empty flat =>
    cases rows with
    | nil => rfl
    | cons first rest =>
      cases flat
      rfl
  | @uneven first row rest i tiled here other even =>
    unfold ofRows
    dsimp only
    split
    · rename_i flat
      exact absurd (List.length_eq_zero_iff.1 flat) tiled
    · split
      · rename_i j found
        obtain ⟨row', here', other', before⟩ := findIdx?_uneven.1 found
        have same : j = i := by
          rcases Nat.lt_trichotomy j i with lt | eq | gt
          · exact absurd (even j lt row' here') other'
          · exact eq
          · exact absurd (before i gt row here) other
        subst same
        rw [here]
        rfl
      · rename_i none
        exact absurd (findIdx?_even.1 none row (List.mem_of_getElem? here)) other
  | @large first rest tiled even beyond =>
    unfold ofRows
    dsimp only
    split
    · rename_i flat
      exact absurd (List.length_eq_zero_iff.1 flat) tiled
    · split
      · rename_i j found
        obtain ⟨row, here, other, _⟩ := findIdx?_uneven.1 found
        rcases List.mem_cons.1 (List.mem_of_getElem? here) with rfl | hr
        · exact absurd rfl other
        · exact absurd (even row hr) other
      · exact if_neg beyond

theorem ofRows_eq_error {e : LevelError} : ofRows rows = .error e ↔ Misshapen rows e :=
  ⟨misshapen_of_ofRows, ofRows_of_misshapen⟩

end TileMap

end IceMaze
