import IceMaze.Json.Decode
import IceMaze.Proofs.Json.Tokens
import Mathlib.Data.List.Nodup

/-!
Records are decoded from the members that have been written for them.

The members of a record that are there come back as its fields (`fields?_present`), and lists and
integers as what they have been made from.
-/

namespace IceMaze.Json

/-! ## Members -/

/-- The members of a record, without the fields that are left out. -/
def present (fields : List (String × Option Json)) : Members :=
  fields.flatMap fun f => (f.2.map fun v => (some f.1, v)).toList

theorem mem_present {fields : List (String × Option Json)} {m : Option String × Json} :
    m ∈ present fields ↔ ∃ f ∈ fields, ∃ v, f.2 = some v ∧ m = (some f.1, v) := by
  simp only [present, List.mem_flatMap, Option.mem_toList, Option.map_eq_some_iff]
  constructor
  · rintro ⟨f, hf, v, hv, rfl⟩
    exact ⟨f, hf, v, hv, rfl⟩
  · rintro ⟨f, hf, v, hv, rfl⟩
    exact ⟨f, hf, v, hv, rfl⟩

theorem keys_present_sublist (fields : List (String × Option Json)) :
    ((present fields).map Prod.fst).Sublist (fields.map fun f => some f.1) := by
  induction fields with
  | nil => exact .slnil
  | cons f fields ih =>
    obtain ⟨key, v⟩ := f
    cases v with
    | none => exact ih.cons _
    | some v => exact ih.cons_cons _

theorem nodup_keys_present {fields : List (String × Option Json)}
    (distinct : (fields.map Prod.fst).Nodup) : ((present fields).map Prod.fst).Nodup := by
  apply (keys_present_sublist fields).nodup
  have keys : fields.map (fun f => some f.1) = (fields.map Prod.fst).map some := by simp
  rw [keys]
  exact distinct.map fun _ _ => Option.some.inj

section
variable {key : String} {v : Json} {members : Members}

theorem filter_key_of_not_mem (absent : some key ∉ members.map Prod.fst) :
    members.filter (·.1 == some key) = [] := by
  apply List.filter_eq_nil_iff.2
  intro m hm
  have other : m.1 ≠ some key := fun same => absent (same ▸ List.mem_map_of_mem hm)
  simpa using other

theorem field?_of_not_mem (absent : some key ∉ members.map Prod.fst) :
    field? members key = some none := by
  rw [field?, filter_key_of_not_mem absent]

theorem field?_cons_self (absent : some key ∉ members.map Prod.fst) :
    field? ((some key, v) :: members) key = some (some v) := by
  rw [field?, List.filter_cons_of_pos (by simp), filter_key_of_not_mem absent]

theorem field?_cons_of_ne {other : Option String} (h : other ≠ some key) :
    field? ((other, v) :: members) key = field? members key := by
  rw [field?, List.filter_cons_of_neg (by simpa using h), field?]

end

theorem field?_present {fields : List (String × Option Json)}
    (distinct : (fields.map Prod.fst).Nodup) {f : String × Option Json} (hf : f ∈ fields) :
    field? (present fields) f.1 = some f.2 := by
  induction fields with
  | nil => cases hf
  | cons g fields ih =>
    obtain ⟨key, slot⟩ := g
    rw [List.map_cons, List.nodup_cons] at distinct
    rcases List.mem_cons.1 hf with rfl | later
    · have absent : some key ∉ (present fields).map Prod.fst := by
        intro found
        have named := (keys_present_sublist fields).mem found
        obtain ⟨g, hg, same⟩ := List.mem_map.1 named
        exact distinct.1 (List.mem_map.2 ⟨g, hg, Option.some.inj same⟩)
      cases slot with
      | none => exact field?_of_not_mem absent
      | some v => exact field?_cons_self absent
    · have other : some key ≠ some f.1 := by
        rintro ⟨⟩
        exact distinct.1 (List.mem_map.2 ⟨f, later, rfl⟩)
      cases slot with
      | none => exact ih distinct.2 later
      | some v => exact (field?_cons_of_ne other).trans (ih distinct.2 later)

theorem mapM_eq_some {α β γ : Type} {f : β → Option γ} {written : α → β} {read : α → γ} {as : List α}
    (h : ∀ a ∈ as, f (written a) = some (read a)) : (as.map written).mapM f = some (as.map read) := by
  induction as with
  | nil => rfl
  | cons a as ih =>
    rw [List.forall_mem_cons] at h
    rw [List.map_cons, List.mapM_cons, h.1, ih h.2]
    rfl

/-- All fields of a record come back, those that have been left out as missing. -/
theorem fields?_present {fields : List (String × Option Json)}
    (distinct : (fields.map Prod.fst).Nodup) (unknown : Unknown) :
    fields? (fields.map Prod.fst) unknown (.obj (present fields)) =
      some (fields.map Prod.snd) := by
  unfold fields?
  dsimp only
  rw [if_pos]
  · exact mapM_eq_some fun f hf => field?_present distinct hf
  · apply List.all_eq_true.2
    intro m hm
    obtain ⟨f, hf, v, _, rfl⟩ := mem_present.1 hm
    have named : (fields.map Prod.fst).contains f.1 = true :=
      List.contains_iff_mem.2 (List.mem_map_of_mem hf)
    dsimp only
    rw [named, Bool.or_true]

/-! ## Fields -/

theorem toList?_arr {α : Type} {f : Json → Option α} {written : α → Json} {as : List α}
    (h : ∀ a ∈ as, f (written a) = some a) : toList? f (.arr (as.map written)) = some as := by
  have items : (Json.arr (as.map written)).toItems? = some (as.map written) := rfl
  rw [toList?, items, Option.bind_eq_bind, Option.bind_some, mapM_eq_some h,
    List.map_id']

theorem toInt?_int {least bound n : Int} (inside : least ≤ n ∧ n < bound)
    (low : -9223372036854775808 ≤ n) (high : n < 18446744073709551616) :
    (Json.int n).toInt? least bound = some n := by
  simp [Json.toInt?, Json.int, Numeral.toInt?_ofInt low high, inside]

end IceMaze.Json
