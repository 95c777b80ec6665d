import IceMaze.Proofs.Json.Compact

/-!
Values are read back from several lines just as from one.

A text over several lines differs from the compact one in its white space only, so it is a text of
the value too (`Legible.spread_pretty`).
-/

namespace IceMaze.Json

variable {text : List Char} {ts : List Token} {indent : Nat}

theorem Spread.onLine (h : Spread ts text) (indent : Nat) : Spread ts (newline indent ++ text) := by
  apply h.blanks
  intro c hc
  rcases List.mem_cons.1 hc with rfl | inner
  · rfl
  · rw [List.eq_of_mem_replicate inner]
    rfl

theorem prettyItems_eq (indent : Nat) (items : List Json) : prettyItems indent items =
    [','].intercalate (items.map fun v => newline indent ++ pretty indent v) := by
  induction items with
  | nil => rfl
  | cons v items ih =>
    cases items with
    | nil => rw [prettyItems, List.map_singleton, List.intercalate_singleton]
    | cons w items => simp [prettyItems, ih]

theorem prettyMembers_eq (indent : Nat) (members : Members) : prettyMembers indent members =
    [','].intercalate (members.map fun m =>
      newline indent ++ (writeText m.1 ++ ':' :: ([' '] ++ pretty indent m.2))) := by
  induction members with
  | nil => rfl
  | cons m members ih =>
    cases members with
    | nil => simp [prettyMembers]
    | cons n members => simp [prettyMembers, ih]

theorem spread_prettyItems {items : List Json}
    (h : ∀ v ∈ items, Spread (tokens v) (pretty indent v)) :
    Spread (itemTokens items) (prettyItems indent items) := by
  rw [prettyItems_eq, itemTokens_eq]
  apply Spread.separated
  intro v hv
  exact (h v hv).onLine indent

theorem spread_prettyMembers {members : Members} (keys : ∀ m ∈ members, m.1.isSome = true)
    (values : ∀ m ∈ members, Spread (tokens m.2) (pretty indent m.2)) :
    Spread (memberTokens members) (prettyMembers indent members) := by
  have space : ∀ c ∈ [' '], isSpace c = true := List.forall_mem_singleton.2 rfl
  rw [prettyMembers_eq, memberTokens_eq]
  apply Spread.separated
  intro m hm
  exact (((values m hm).blanks space).member (keys m hm)).onLine indent

/-- However a value is laid out, its tokens are the same. -/
theorem Legible.spread_pretty {v : Json} (h : v.Legible) (indent : Nat) :
    Spread (tokens v) (pretty indent v) := by
  induction h generalizing indent with
  | null => exact .single .null
  | bool b => exact spread_bool b
  | num proper => exact spread_numeral proper
  | str s => exact spread_text rfl
  | @arr items _ ih =>
    cases items with
    | nil => exact (Spread.single .bracketClose).mark .bracketOpen
    | cons v vs =>
      have inside := spread_prettyItems fun v hv => ih v hv (indent + 1)
      have closed := (Spread.single .bracketClose).onLine indent
      have opened := (inside.append closed).mark .bracketOpen
      simpa [pretty, tokens] using opened
  | @obj members keys _ ih =>
    cases members with
    | nil => exact (Spread.single .braceClose).mark .braceOpen
    | cons m ms =>
      have inside := spread_prettyMembers keys fun m hm => ih m hm (indent + 1)
      have closed := (Spread.single .braceClose).onLine indent
      have opened := (inside.append closed).mark .braceOpen
      simpa [pretty, tokens] using opened

/-- A value whose numerals are proper is read back from its text over several lines. -/
theorem read?_pretty {v : Json} (h : v.Legible) (indent : Nat) : read? (pretty indent v) = some v :=
  read?_eq_some.2 (h.spread_pretty indent)

end IceMaze.Json
