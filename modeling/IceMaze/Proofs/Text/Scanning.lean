import IceMaze.Coord
import IceMaze.Text.Blank
import IceMaze.Text.Numeric
import IceMaze.Text.Split
import Mathlib.Data.List.Basic
import Mathlib.Data.List.TakeWhile

/-!
Reading texts, and reading back what has been written.

Trimming takes blanks off both ends (`exists_trim`) and leaves a text without blanks alone. The
parts of a joined text are those of its sides (`splitAt_append`, `splitWhere_append`,
`lines_append`), so splitting undoes joining (`splitAt_joinWith`, `splitWhere_flatMap`,
`lines_flatMap`). A written number is read as itself (`readInt?_integer`).
-/

namespace IceMaze.Text

/-! ## Trimming -/

/-- No character is blank. -/
def Solid (s : List Char) : Prop := ∀ c ∈ s, isBlank c = false

theorem Solid.nil : Solid [] := nofun

theorem Solid.singleton {c : Char} (h : isBlank c = false) : Solid [c] := fun _ hd =>
  List.mem_singleton.1 hd ▸ h

theorem Solid.not_mem {s : List Char} (h : Solid s) {c : Char} (blank : isBlank c = true) :
    c ∉ s := fun hc => by
  rw [h c hc] at blank
  cases blank

theorem Solid.append {s t : List Char} (hs : Solid s) (ht : Solid t) : Solid (s ++ t) := fun c hc =>
  (List.mem_append.1 hc).elim (hs c) (ht c)

theorem trimStart_of_head {s : List Char} (h : ∀ c ∈ s.head?, isBlank c = false) :
    trimStart s = s := by
  cases s with
  | nil => rfl
  | cons c s => simp [trimStart, h c (by simp)]

/-- A text that neither starts nor ends with a blank is its own trimmed form. -/
theorem trim_of_ends {s : List Char} (first : ∀ c ∈ s.head?, isBlank c = false)
    (last : ∀ c ∈ s.getLast?, isBlank c = false) : trim s = s := by
  have reversed : trimStart s.reverse = s.reverse := trimStart_of_head (by simpa using last)
  rw [trim, trimStart_of_head first, trimEnd, ← trimStart, reversed, List.reverse_reverse]

theorem trim_of_solid {s : List Char} (h : Solid s) : trim s = s :=
  trim_of_ends (fun c hc => h c (List.mem_of_mem_head? hc))
    fun c hc => h c (List.mem_of_getLast? hc)

theorem trimStart_of_solid {s : List Char} (h : Solid s) : trimStart s = s :=
  trimStart_of_head fun c hc => h c (List.mem_of_mem_head? hc)

theorem trimStart_blank {c : Char} (h : isBlank c = true) (s : List Char) :
    trimStart (c :: s) = trimStart s := by
  simp [trimStart, h]

theorem trim_blank {c : Char} (h : isBlank c = true) (s : List Char) : trim (c :: s) = trim s := by
  rw [trim, trimStart_blank h, trim]

theorem mem_trimStart {c : Char} {s : List Char} (h : c ∈ s) (printed : isBlank c = false) :
    c ∈ trimStart s := by
  rw [← List.takeWhile_append_dropWhile (p := isBlank) (l := s), List.mem_append] at h
  rcases h with blank | kept
  · rw [List.all_eq_true.1 List.all_takeWhile c blank] at printed
    cases printed
  · exact kept

theorem mem_trim {c : Char} {s : List Char} (h : c ∈ s) (printed : isBlank c = false) :
    c ∈ trim s := by
  have started := mem_trimStart h printed
  have ended := mem_trimStart (List.mem_reverse.2 started) printed
  exact List.mem_reverse.2 ended

/-! ## Blank texts -/

/-- Every character is blank. -/
def Blank (s : List Char) : Prop := ∀ c ∈ s, isBlank c = true

instance (s : List Char) : Decidable (Blank s) :=
  decidable_of_iff (s.all isBlank = true) List.all_eq_true

theorem Blank.nil : Blank [] := nofun

theorem Blank.not_mem {s : List Char} (h : Blank s) {c : Char} (printed : isBlank c = false) :
    c ∉ s := by
  intro hc
  rw [h c hc] at printed
  cases printed

theorem trimStart_eq_nil_iff {s : List Char} : trimStart s = [] ↔ Blank s :=
  List.dropWhile_eq_nil_iff

theorem trimStart_blank_append {a : List Char} (h : Blank a) (s : List Char) :
    trimStart (a ++ s) = trimStart s := by
  rw [trimStart, List.dropWhile_append_of_pos h, trimStart]

theorem trimEnd_append_blank {b : List Char} (h : Blank b) (s : List Char) :
    trimEnd (s ++ b) = trimEnd s := by
  have reversed : ∀ c ∈ b.reverse, isBlank c = true := by
    intro c hc
    exact h c (List.mem_reverse.1 hc)
  rw [trimEnd, List.reverse_append, List.dropWhile_append_of_pos reversed, trimEnd]

theorem trimEnd_concat {c : Char} (h : isBlank c = false) (s : List Char) :
    trimEnd (s ++ [c]) = s ++ [c] := by
  rw [trimEnd, List.reverse_concat, List.dropWhile_cons_of_neg (Bool.eq_false_iff.1 h),
    ← List.reverse_concat, List.reverse_reverse]

theorem trimStart_append {s : List Char} (h : ¬Blank s) (t : List Char) :
    trimStart (s ++ t) = trimStart s ++ t := by
  rw [← trimStart_eq_nil_iff] at h
  rw [trimStart, List.dropWhile_append, if_neg (by simpa [trimStart] using h), trimStart]

theorem trim_eq_nil_iff {s : List Char} : trim s = [] ↔ Blank s := by
  constructor
  · intro h c hc
    by_contra printed
    have kept : c ∈ trim s := mem_trim hc (Bool.eq_false_iff.2 printed)
    rw [h] at kept
    cases kept
  · intro h
    rw [trim, trimStart_eq_nil_iff.2 h]
    rfl

theorem Blank.append {s t : List Char} (hs : Blank s) (ht : Blank t) : Blank (s ++ t) :=
  List.forall_mem_append.2 ⟨hs, ht⟩

theorem trim_append_blank {b : List Char} (h : Blank b) (s : List Char) :
    trim (s ++ b) = trim s := by
  by_cases blank : Blank s
  · rw [trim_eq_nil_iff.2 (blank.append h), trim_eq_nil_iff.2 blank]
  · rw [trim, trimStart_append blank, trimEnd_append_blank h, trim]

theorem trim_between_blanks {a b : List Char} (ha : Blank a) (hb : Blank b) (s : List Char) :
    trim (a ++ s ++ b) = trim s := by
  rw [trim_append_blank hb, trim, trimStart_blank_append ha, trim]

theorem exists_trimStart (s : List Char) : ∃ a, Blank a ∧ s = a ++ trimStart s :=
  ⟨s.takeWhile isBlank, fun _ hc => List.mem_takeWhile_imp hc,
    (List.takeWhile_append_dropWhile (p := isBlank)).symm⟩

theorem exists_trimEnd (s : List Char) : ∃ b, Blank b ∧ s = trimEnd s ++ b := by
  refine ⟨(s.reverse.takeWhile isBlank).reverse, ?_, ?_⟩
  · intro c hc
    rw [List.mem_reverse] at hc
    exact List.mem_takeWhile_imp hc
  · rw [trimEnd, ← List.reverse_append, List.takeWhile_append_dropWhile, List.reverse_reverse]

/-- Trimming takes blanks off both ends. -/
theorem exists_trim (s : List Char) : ∃ a b, Blank a ∧ Blank b ∧ s = a ++ trim s ++ b := by
  obtain ⟨a, before, first⟩ := exists_trimStart s
  obtain ⟨b, after, last⟩ := exists_trimEnd (trimStart s)
  refine ⟨a, b, before, after, ?_⟩
  rw [trim, List.append_assoc, ← last]
  exact first

/-! ## Splitting -/

theorem takeWhile_dropWhile_append {p : Char → Bool} {s t : List Char} (hs : ∀ c ∈ s, p c = true)
    (ht : ∀ c ∈ t.head?, p c = false) :
    (s ++ t).takeWhile p = s ∧ (s ++ t).dropWhile p = t := by
  have stop : t.takeWhile p = [] ∧ t.dropWhile p = t := by
    cases t with
    | nil => exact ⟨rfl, rfl⟩
    | cons c t => simp [ht c rfl]
  rw [List.takeWhile_append_of_pos hs, List.dropWhile_append_of_pos hs, stop.1, stop.2,
    List.append_nil]
  exact ⟨rfl, rfl⟩

theorem before_append {c : Char} {s t : List Char} (h : c ∉ s) : before c (s ++ c :: t) = s := by
  rw [before, cut?_eq_some.2 ⟨rfl, h⟩]
  rfl

theorem after_append {c : Char} {s t : List Char} (h : c ∉ s) : after c (s ++ c :: t) = t := by
  rw [after, cut?_eq_some.2 ⟨rfl, h⟩]
  rfl

section
variable {c : Char} {s t : List Char}

theorem cut?_eq_none : cut? c s = none ↔ c ∉ s := by
  constructor
  · intro h hc
    obtain ⟨a, b, rfl, ha⟩ := List.eq_append_cons_of_mem hc
    rw [cut?_eq_some.2 ⟨rfl, ha⟩] at h
    cases h
  · intro h
    cases cut : cut? c s with
    | none => rfl
    | some p =>
      obtain ⟨rfl, _⟩ := cut?_eq_some.1 (cut : cut? c s = some (p.1, p.2))
      simp at h

theorem before_of_not_mem (h : c ∉ s) : before c s = s := by
  rw [before, cut?_eq_none.2 h]
  rfl

theorem after_of_not_mem (h : c ∉ s) : after c s = [] := by
  rw [after, cut?_eq_none.2 h]
  rfl

theorem before_append_of_not_mem (h : c ∉ s) (t : List Char) :
    before c (s ++ t) = s ++ before c t := by
  by_cases ht : c ∈ t
  · obtain ⟨a, b, rfl, ha⟩ := List.eq_append_cons_of_mem ht
    rw [← List.append_assoc, before_append, before_append ha]
    simp [h, ha]
  · rw [before_of_not_mem ht, before_of_not_mem]
    simp [h, ht]

theorem after_append_of_not_mem (h : c ∉ s) (t : List Char) : after c (s ++ t) = after c t := by
  by_cases ht : c ∈ t
  · obtain ⟨a, b, rfl, ha⟩ := List.eq_append_cons_of_mem ht
    rw [← List.append_assoc, after_append, after_append ha]
    simp [h, ha]
  · rw [after_of_not_mem ht, after_of_not_mem]
    simp [h, ht]

theorem before_append_of_mem (h : c ∈ s) (t : List Char) : before c (s ++ t) = before c s := by
  obtain ⟨a, b, rfl, ha⟩ := List.eq_append_cons_of_mem h
  rw [List.append_assoc, List.cons_append, before_append ha, before_append ha]

theorem after_append_of_mem (h : c ∈ s) (t : List Char) :
    after c (s ++ t) = after c s ++ t := by
  obtain ⟨a, b, rfl, ha⟩ := List.eq_append_cons_of_mem h
  rw [List.append_assoc, List.cons_append, after_append ha, after_append ha]

theorem Blank.before (h : Blank s) (c : Char) : Blank (Text.before c s) := by
  by_cases hc : c ∈ s
  · obtain ⟨a, b, rfl, ha⟩ := List.eq_append_cons_of_mem hc
    rw [before_append ha]
    exact fun d hd => h d (List.mem_append_left _ hd)
  · rwa [before_of_not_mem hc]

theorem Blank.after (h : Blank s) (c : Char) : Blank (Text.after c s) := by
  by_cases hc : c ∈ s
  · obtain ⟨a, b, rfl, ha⟩ := List.eq_append_cons_of_mem hc
    rw [after_append ha]
    exact fun d hd => h d (List.mem_append_right _ (List.mem_cons_of_mem _ hd))
  · rw [after_of_not_mem hc]
    nofun

end

theorem splitAt_of_not_mem {c : Char} {s : List Char} (h : c ∉ s) : splitAt c s = [s] := by
  induction s with
  | nil => rfl
  | cons d s ih =>
    rw [List.mem_cons, not_or] at h
    rw [splitAt, if_neg (Ne.symm h.1), ih h.2]

theorem splitAt_append_cons {c : Char} {s : List Char} (h : c ∉ s) (t : List Char) :
    splitAt c (s ++ c :: t) = s :: splitAt c t := by
  induction s with
  | nil => simp [splitAt]
  | cons d s ih =>
    rw [List.mem_cons, not_or] at h
    rw [List.cons_append, splitAt, if_neg (Ne.symm h.1), ih h.2]

theorem splitAt_joinWith {c : Char} {ps : List (List Char)} (ne : ps ≠ [])
    (h : ∀ p ∈ ps, c ∉ p) : splitAt c (joinWith c ps) = ps := by
  induction ps with
  | nil => exact absurd rfl ne
  | cons p ps ih =>
    rw [List.forall_mem_cons] at h
    cases ps with
    | nil => exact splitAt_of_not_mem h.1
    | cons q qs => rw [joinWith, splitAt_append_cons h.1, ih (by simp) h.2]

theorem mem_joinWith {c d : Char} {ps : List (List Char)} (h : c ∈ joinWith d ps) :
    c = d ∨ ∃ p ∈ ps, c ∈ p := by
  induction ps with
  | nil => cases h
  | cons p ps ih =>
    cases ps with
    | nil => exact .inr ⟨p, List.mem_cons_self, h⟩
    | cons q qs =>
      rw [joinWith, List.mem_append, List.mem_cons] at h
      rcases h with h | rfl | h
      · exact .inr ⟨p, List.mem_cons_self, h⟩
      · exact .inl rfl
      · rcases ih h with same | ⟨r, hr, h⟩
        · exact .inl same
        · exact .inr ⟨r, List.mem_cons_of_mem _ hr, h⟩

theorem mem_joinWith_of_mem {c d : Char} {p : List Char} {ps : List (List Char)} (hp : p ∈ ps)
    (hc : c ∈ p) : c ∈ joinWith d ps := by
  induction ps with
  | nil => cases hp
  | cons q ps ih =>
    cases ps with
    | nil => exact List.mem_singleton.1 hp ▸ hc
    | cons r rs =>
      rw [joinWith, List.mem_append, List.mem_cons]
      rcases List.mem_cons.1 hp with rfl | hp
      · exact .inl hc
      · exact .inr (.inr (ih hp))

/-- A text has no `c`, or a first piece without one before the rest. -/
theorem piecewise (c : Char) {P : List Char → Prop} (last : ∀ s, c ∉ s → P s)
    (first : ∀ s t, c ∉ s → P t → P (s ++ c :: t)) (s : List Char) : P s := by
  by_cases h : c ∈ s
  · obtain ⟨a, b, split, ha⟩ := List.eq_append_cons_of_mem h
    have shorter : b.length < s.length := by
      rw [split, List.length_append, List.length_cons]
      omega
    rw [split]
    exact first a b ha (piecewise c last first b)
  · exact last s h
termination_by s.length

theorem splitAt_append (c : Char) (s t : List Char) :
    splitAt c (s ++ c :: t) = splitAt c s ++ splitAt c t := by
  induction s using piecewise c with
  | last s h => rw [splitAt_append_cons h, splitAt_of_not_mem h, List.singleton_append]
  | first s u h ih =>
    rw [List.append_assoc, List.cons_append, splitAt_append_cons h, ih, splitAt_append_cons h,
      List.cons_append]

theorem mem_of_mem_splitAt {c d : Char} {s p : List Char} (hp : p ∈ splitAt c s) (hd : d ∈ p) :
    d ∈ s := by
  rw [← joinWith_splitAt c s]
  exact mem_joinWith_of_mem hp hd

theorem solid_joinWith {d : Char} (hd : isBlank d = false) {ps : List (List Char)}
    (h : ∀ p ∈ ps, Solid p) : Solid (joinWith d ps) := fun c hc => by
  rcases mem_joinWith hc with rfl | ⟨p, hp, hc⟩
  · exact hd
  · exact h p hp c hc

/-- Joined words start and end as their first and last word do. -/
theorem trim_joinWith {d : Char} {ps : List (List Char)} (h : ∀ p ∈ ps, Solid p ∧ p ≠ []) :
    trim (joinWith d ps) = joinWith d ps := by
  refine trim_of_ends ?_ ?_
  · cases ps with
    | nil => simp [joinWith]
    | cons p ps =>
      obtain ⟨solid, ne⟩ := h p List.mem_cons_self
      obtain ⟨c, s, rfl⟩ := List.exists_cons_of_ne_nil ne
      cases ps <;> simpa [joinWith] using solid c List.mem_cons_self
  · induction ps with
    | nil => simp [joinWith]
    | cons p ps ih =>
      rw [List.forall_mem_cons] at h
      cases ps with
      | nil => exact fun c hc => h.1.1 c (List.mem_of_getLast? hc)
      | cons q qs =>
        have ne : joinWith d (q :: qs) ≠ [] := by
          obtain ⟨c, s, hq⟩ := List.exists_cons_of_ne_nil (h.2 q List.mem_cons_self).2
          have member : c ∈ q := hq ▸ List.mem_cons_self
          exact List.ne_nil_of_mem (mem_joinWith_of_mem List.mem_cons_self member)
        have end_of_rest :
            (joinWith d (p :: q :: qs)).getLast? = (joinWith d (q :: qs)).getLast? := by
          rw [joinWith, List.getLast?_append, List.getLast?_cons,
            List.getLast?_eq_some_getLast ne]
          rfl
        rw [end_of_rest]
        exact ih h.2

section
variable {α : Type} {p : α → Bool}

theorem splitWhere_ne_nil (p : α → Bool) (as : List α) : splitWhere p as ≠ [] := by
  cases as with
  | nil => simp [splitWhere]
  | cons a as => simp only [splitWhere]; split <;> (try split) <;> simp

theorem splitWhere_append {b : α} (hb : p b = true) (as bs : List α) :
    splitWhere p (as ++ b :: bs) = splitWhere p as ++ splitWhere p bs := by
  induction as with
  | nil => simp [splitWhere, hb]
  | cons a as ih =>
    obtain ⟨q, qs, parts⟩ := List.exists_cons_of_ne_nil (splitWhere_ne_nil p as)
    rw [List.cons_append, splitWhere, splitWhere, ih, parts]
    split <;> rfl

/-- An item that is no mark joins the last part. -/
theorem splitWhere_concat (p : α → Bool) (as : List α) :
    ∃ parts last, splitWhere p as = parts ++ [last] ∧
      ∀ b, p b = false → splitWhere p (as ++ [b]) = parts ++ [last ++ [b]] := by
  induction as with
  | nil =>
    refine ⟨[], [], rfl, ?_⟩
    intro b hb
    simp [splitWhere, hb]
  | cons a as ih =>
    obtain ⟨parts, last, split, joined⟩ := ih
    rw [splitWhere, split]
    by_cases mark : p a = true
    · refine ⟨[] :: parts, last, if_pos mark, ?_⟩
      intro b hb
      rw [List.cons_append, splitWhere, joined b hb, if_pos mark]
      rfl
    · cases parts with
      | nil =>
        refine ⟨[], a :: last, if_neg mark, ?_⟩
        intro b hb
        rw [List.cons_append, splitWhere, joined b hb, if_neg mark]
        rfl
      | cons q qs =>
        refine ⟨(a :: q) :: qs, last, if_neg mark, ?_⟩
        intro b hb
        rw [List.cons_append, splitWhere, joined b hb, if_neg mark]
        rfl

theorem splitWhere_of_forall {as : List α} (h : ∀ a ∈ as, p a = false) :
    splitWhere p as = [as] := by
  induction as with
  | nil => rfl
  | cons a as ih =>
    rw [List.forall_mem_cons] at h
    simp [splitWhere, h.1, ih h.2]

theorem splitWhere_map {g : α → α} (same : ∀ a, p (g a) = p a) (as : List α) :
    splitWhere p (as.map g) = (splitWhere p as).map (List.map g) := by
  induction as with
  | nil => rfl
  | cons a as ih =>
    rw [List.map_cons, splitWhere, splitWhere, same, ih]
    cases splitWhere p as <;> split <;> rfl

/-- What has no mark stands in front of the first part. -/
theorem exists_splitWhere_append {as : List α} (h : ∀ a ∈ as, p a = false) (bs : List α) :
    ∃ q qs, splitWhere p (as ++ bs) = (as ++ q) :: qs := by
  induction as with
  | nil =>
    rw [List.nil_append]
    exact List.exists_cons_of_ne_nil (splitWhere_ne_nil p bs)
  | cons a as ih =>
    rw [List.forall_mem_cons] at h
    obtain ⟨q, qs, split⟩ := ih h.2
    refine ⟨q, qs, ?_⟩
    simp [splitWhere, h.1, split]

theorem splitWhere_append_cons {as : List α} {b : α} (h : ∀ a ∈ as, p a = false)
    (hb : p b = true) (bs : List α) : splitWhere p (as ++ b :: bs) = as :: splitWhere p bs := by
  induction as with
  | nil => simp [splitWhere, hb]
  | cons a as ih =>
    rw [List.forall_mem_cons] at h
    simp [splitWhere, h.1, ih h.2]

/-- Parts that are set off by a mark each come apart again. -/
theorem splitWhere_flatMap {b : α} (hb : p b = true) {as : List α} {parts : List (List α)}
    (h : ∀ a ∈ as, p a = false) (hs : ∀ q ∈ parts, ∀ a ∈ q, p a = false) :
    splitWhere p (as ++ parts.flatMap (b :: ·)) = as :: parts := by
  induction parts generalizing as with
  | nil => simp [splitWhere_of_forall h]
  | cons q parts ih =>
    rw [List.forall_mem_cons] at hs
    rw [List.flatMap_cons, List.cons_append, splitWhere_append_cons h hb, ih hs.1 hs.2]

end

/-! ## Lines -/

theorem dropReturn_of_not_mem {s : List Char} (h : '\r' ∉ s) : dropReturn s = s := by
  rw [dropReturn, if_neg]
  exact fun last => h (List.mem_of_getLast? last)

theorem trim_dropReturn (s : List Char) : trim (dropReturn s) = trim s := by
  rw [dropReturn]
  split
  · rename_i last
    obtain ⟨t, rfl⟩ := List.getLast?_eq_some_iff.1 last
    have blank : Blank ['\r'] := by decide
    rw [List.dropLast_concat, trim_append_blank blank]
  · rfl

theorem dropReturn_append_blank (s : List Char) : ∃ b, Blank b ∧ s = dropReturn s ++ b := by
  rw [dropReturn]
  split
  · rename_i last
    obtain ⟨t, rfl⟩ := List.getLast?_eq_some_iff.1 last
    exact ⟨['\r'], by decide, by rw [List.dropLast_concat]⟩
  · exact ⟨[], Blank.nil, (List.append_nil s).symm⟩

theorem blank_dropReturn {s : List Char} : Blank (dropReturn s) ↔ Blank s := by
  rw [← trim_eq_nil_iff, ← trim_eq_nil_iff, trim_dropReturn]

theorem map_dropReturn {ls : List (List Char)} (h : ∀ l ∈ ls, '\r' ∉ l) :
    ls.map dropReturn = ls := by
  have same : ls.map dropReturn = ls.map id :=
    List.map_congr_left fun l hl => dropReturn_of_not_mem (h l hl)
  rw [same, List.map_id]

theorem blank_iff_pieces {s : List Char} : Blank s ↔ ∀ piece ∈ splitAt '\n' s, Blank piece := by
  constructor
  · intro h piece hp c hc
    exact h c (mem_of_mem_splitAt hp hc)
  · intro h c hc
    rw [← joinWith_splitAt '\n' s] at hc
    rcases mem_joinWith hc with rfl | ⟨piece, hp, hc⟩
    · decide
    · exact h piece hp c hc

/-- The lines of a text, and the pieces that they are made from. -/
theorem exists_pieces (s : List Char) : ∃ closed last, splitAt '\n' s = closed ++ [last] ∧
    lines s = closed.map dropReturn ++ [last].filter (· ≠ []) := by
  have pieces := List.dropLast_append_getLast (splitAt_ne_nil '\n' s)
  refine ⟨_, _, pieces.symm, ?_⟩
  rw [lines, List.getLast?_eq_some_getLast (splitAt_ne_nil '\n' s)]
  rfl

/-- A newline closes the lines before it. -/
theorem lines_append (s t : List Char) :
    lines (s ++ '\n' :: t) = (splitAt '\n' s).map dropReturn ++ lines t := by
  have ne := splitAt_ne_nil '\n' t
  simp only [lines, splitAt_append, List.dropLast_append_of_ne_nil ne, List.map_append,
    List.getLast?_append_of_ne_nil _ ne, List.append_assoc]

/-- Lines that are ended by a newline each come apart again. -/
theorem lines_flatMap {ls : List (List Char)} (h : ∀ l ∈ ls, '\n' ∉ l ∧ '\r' ∉ l) :
    lines (ls.flatMap (· ++ ['\n'])) = ls := by
  have pieces : splitAt '\n' (ls.flatMap (· ++ ['\n'])) = ls ++ [[]] := by
    induction ls with
    | nil => rfl
    | cons l ls ih =>
      rw [List.forall_mem_cons] at h
      rw [List.flatMap_cons, List.append_assoc, List.singleton_append,
        splitAt_append_cons h.1.1, ih h.2, List.cons_append]
  simp [lines, pieces, map_dropReturn fun l hl => (h l hl).2]

/-- The same for lines with a newline between them only. -/
theorem lines_joinWith {ls : List (List Char)} (h : ∀ l ∈ ls, '\n' ∉ l ∧ '\r' ∉ l ∧ l ≠ []) :
    lines (joinWith '\n' ls) = ls := by
  by_cases none : ls = []
  · subst none
    simp [lines, joinWith, splitAt]
  · have pieces := splitAt_joinWith none fun l hl => (h l hl).1
    have before := map_dropReturn fun l hl => (h l ((List.dropLast_sublist ls).mem hl)).2.1
    have last : ls.getLast none ≠ [] := (h _ (List.getLast_mem none)).2.2
    rw [lines, pieces, before, List.getLast?_eq_some_getLast none]
    simp [last, List.dropLast_concat_getLast]

/-! ## Numbers -/

theorem all_isDigit_digits (n : Nat) : (digits n).all isDigit := by
  induction n using digits.induct with
  | case1 n h =>
    rw [digits, if_pos h]
    simp [isDigit_digit n h]
  | case2 n h ih =>
    rw [digits, if_neg h]
    simp [ih, isDigit_digit _ (Nat.mod_lt n (by decide))]

theorem digits_ne_nil (n : Nat) : digits n ≠ [] := by
  rw [digits]
  split <;> simp

theorem readNat?_digits (n : Nat) : readNat? (digits n) = some n := by
  rw [readNat?, if_pos ⟨digits_ne_nil n, all_isDigit_digits n⟩, value_digits]

theorem readInt?_integer (n : Int) : readInt? (integer n) = some n := by
  cases n with
  | negSucc n => simp [integer, readInt?, readNat?_digits, Int.negSucc_eq]
  | ofNat n =>
    have first : ∀ c ∈ (digits n).head?, isDigit c = true := fun c hc =>
      List.all_eq_true.1 (all_isDigit_digits n) c (List.mem_of_mem_head? hc)
    rw [integer]
    unfold readInt?
    split
    · rename_i s written
      rw [written] at first
      exact absurd (first '-' rfl) (by decide)
    · rename_i s written
      rw [written] at first
      exact absurd (first '+' rfl) (by decide)
    · rw [readNat?_digits, Option.map_some]

/-! ## Kinds of characters -/

theorem isBlank_of_printed {c : Char} (low : 0x21 ≤ c.toNat) (high : c.toNat ≤ 0x7E) :
    isBlank c = false := by
  simp only [isBlank, blankRanges, List.any_cons, List.any_nil, Bool.or_false, Bool.or_eq_false_iff,
    Bool.and_eq_false_iff, decide_eq_false_iff_not]
  omega

theorem isDigit_iff {c : Char} : isDigit c = true ↔ 0x30 ≤ c.toNat ∧ c.toNat ≤ 0x39 := by
  simp only [isDigit, Bool.and_eq_true, decide_eq_true_eq, Char.le_def, UInt32.le_iff_toNat_le]
  rfl

theorem isBlank_of_isDigit {c : Char} (h : isDigit c = true) : isBlank c = false := by
  obtain ⟨low, high⟩ := isDigit_iff.1 h
  exact isBlank_of_printed (by omega) (by omega)

theorem solid_digits (n : Nat) : Solid (digits n) := fun c hc =>
  isBlank_of_isDigit (List.all_eq_true.1 (all_isDigit_digits n) c hc)

end IceMaze.Text
