import IceMaze.Proofs.Json.Grammar

/-!
Values are read back as they are written.

The compact text of a value is one of its texts (`Legible.spread`), and so it is read as the value
(`read?_compact`). `normal_arr` and `normal_obj` say when a value is normal already, and
`Distinct.eq_of_normalize?` when there is no other that it could become.
-/

namespace IceMaze.Json

open Text

/-- The numerals are proper, and all strings have a text. -/
inductive Legible : Json → Prop where
  | null : Legible .null
  | bool (b : Bool) : Legible (.bool b)
  | num {n : Numeral} (proper : n.Proper) : Legible (.num n)
  | str (s : String) : Legible (.str (some s))
  | arr {items : List Json} (items_legible : ∀ v ∈ items, Legible v) : Legible (.arr items)
  | obj {members : Members} (keys : ∀ m ∈ members, m.1.isSome = true)
      (values : ∀ m ∈ members, Legible m.2) : Legible (.obj members)

theorem legible_int (n : Int) : Legible (.int n) := .num (Numeral.proper_ofInt n)

/-! ## Writing -/

theorem compactItems_eq (items : List Json) :
    compactItems items = [','].intercalate (items.map compact) := by
  induction items with
  | nil => rfl
  | cons v items ih =>
    cases items with
    | nil => rw [compactItems, List.map_singleton, List.intercalate_singleton]
    | cons w items => simp [compactItems, ih]

theorem compactMembers_eq (members : Members) : compactMembers members =
    [','].intercalate (members.map fun m => writeText m.1 ++ ':' :: compact m.2) := by
  induction members with
  | nil => rfl
  | cons m members ih =>
    cases members with
    | nil => rw [compactMembers, List.map_singleton, List.intercalate_singleton]
    | cons n members => simp [compactMembers, ih]

theorem spread_text {key : Option String} (some_key : key.isSome = true) :
    Spread [.str key] (writeText key) := by
  obtain ⟨s, rfl⟩ := Option.isSome_iff_exists.1 some_key
  exact .single (written_writeText s)

theorem spread_numeral {n : Numeral} (h : n.Proper) : Spread [.num n] n.write := by
  rw [Numeral.write_eq]
  exact .single (.num h (Numeral.written_writeExponent n.exponent))

theorem spread_bool (b : Bool) : Spread [.bool b] (if b then "true" else "false").toList := by
  cases b with
  | true => exact .single (.bool true)
  | false => exact .single (.bool false)

/-- A key, and the text of its value. -/
theorem Spread.member {key : Option String} (some_key : key.isSome = true) {text : List Char}
    {ts : List Token} (value : Spread ts text) :
    Spread (.str key :: .colon :: ts) (writeText key ++ ':' :: text) :=
  (spread_text some_key).append (value.mark .colon)

theorem spread_items {items : List Json} (h : ∀ v ∈ items, Spread (tokens v) (compact v)) :
    Spread (itemTokens items) (compactItems items) := by
  rw [compactItems_eq, itemTokens_eq]
  exact .separated h

theorem spread_members {members : Members} (keys : ∀ m ∈ members, m.1.isSome = true)
    (values : ∀ m ∈ members, Spread (tokens m.2) (compact m.2)) :
    Spread (memberTokens members) (compactMembers members) := by
  rw [compactMembers_eq, memberTokens_eq]
  apply Spread.separated
  intro m hm
  exact (values m hm).member (keys m hm)

theorem Legible.spread {v : Json} (h : v.Legible) : Spread (tokens v) (compact v) := by
  induction h with
  | null => exact .single .null
  | bool b => exact spread_bool b
  | num proper => exact spread_numeral proper
  | str s => exact spread_text rfl
  | arr _ ih => exact ((spread_items ih).append (.single .bracketClose)).mark .bracketOpen
  | obj keys _ ih => exact ((spread_members keys ih).append (.single .braceClose)).mark .braceOpen

/-- A value whose numerals are proper is read back from its compact text. -/
theorem read?_compact {v : Json} (h : v.Legible) : read? (compact v) = some v :=
  read?_eq_some.2 h.spread

/-! ## Normal values -/

/-- Normalising leaves the value as it is. -/
def Normal (depth : Nat) (v : Json) : Prop := v.normalize? depth = some v

theorem normal_int {n : Int} (low : -9223372036854775808 ≤ n) (high : n < 18446744073709551616)
    (depth : Nat) : Normal depth (.int n) := by
  simp [Normal, int, normalize?, Numeral.toInt?_ofInt low high]

theorem normal_arr {depth : Nat} {items : List Json} (h : ∀ v ∈ items, Normal depth v) :
    Normal (depth + 1) (.arr items) := by
  have each : normalizeItems? depth items = some items := by
    induction items with
    | nil => rw [normalizeItems?]
    | cons v items ih =>
      rw [List.forall_mem_cons] at h
      have first : v.normalize? depth = some v := h.1
      simp [normalizeItems?, first, ih h.2]
  simp [Normal, normalize?, each]

theorem dropEarlier_of_nodup {members : Members} (h : (members.map Prod.fst).Nodup) :
    dropEarlier members = members := by
  induction members with
  | nil => rfl
  | cons m members ih =>
    obtain ⟨k, v⟩ := m
    rw [List.map_cons, List.nodup_cons] at h
    have once : members.any (·.1 == k) = false := by
      apply List.any_eq_false.2
      intro m hm same
      exact h.1 (List.mem_map.2 ⟨m, hm, beq_iff_eq.1 same⟩)
    rw [dropEarlier, once, ih h.2]
    rfl

theorem normal_obj {depth : Nat} {members : Members} (keys : ∀ m ∈ members, m.1.isSome = true)
    (distinct : (members.map Prod.fst).Nodup) (values : ∀ m ∈ members, Normal depth m.2) :
    Normal (depth + 1) (.obj members) := by
  have each : normalizeMembers? depth members = some members := by
    clear distinct
    induction members with
    | nil => rw [normalizeMembers?]
    | cons m members ih =>
      obtain ⟨k, v⟩ := m
      rw [List.forall_mem_cons] at keys values
      have first : v.normalize? depth = some v := values.1
      have key : k.isNone = false := by simpa using keys.1
      simp [normalizeMembers?, key, first, ih keys.2 values.2]
  simp [Normal, normalize?, each, dropEarlier_of_nodup distinct]

/-! ## Values without repeated keys -/

/-- No object has a key twice. Keys without a text are not compared. -/
inductive Distinct : Json → Prop where
  | null : Distinct .null
  | bool (b : Bool) : Distinct (.bool b)
  | num (n : Numeral) : Distinct (.num n)
  | str (s : Option String) : Distinct (.str s)
  | arr {items : List Json} (items_distinct : ∀ v ∈ items, Distinct v) : Distinct (.arr items)
  | obj {members : Members} (keys : (members.filterMap Prod.fst).Nodup)
      (values : ∀ m ∈ members, Distinct m.2) : Distinct (.obj members)

theorem eq_of_normalizeItems? {depth : Nat} {items items' : List Json}
    (each : ∀ v ∈ items, ∀ w, v.normalize? depth = some w → w = v)
    (h : normalizeItems? depth items = some items') : items' = items := by
  induction items generalizing items' with
  | nil =>
    rw [normalizeItems?] at h
    cases h
    rfl
  | cons v items ih =>
    rw [List.forall_mem_cons] at each
    rw [normalizeItems?, Option.bind_eq_bind, Option.bind_eq_some_iff] at h
    obtain ⟨w, first, h⟩ := h
    obtain ⟨ws, rest, h⟩ := Option.bind_eq_some_iff.1 h
    cases h
    rw [each.1 w first, ih each.2 rest]

theorem eq_of_normalizeMembers? {depth : Nat} {members members' : Members}
    (each : ∀ m ∈ members, ∀ w, m.2.normalize? depth = some w → w = m.2)
    (h : normalizeMembers? depth members = some members') :
    members' = members ∧ members.map Prod.fst = (members.filterMap Prod.fst).map some := by
  induction members generalizing members' with
  | nil =>
    rw [normalizeMembers?] at h
    cases h
    exact ⟨rfl, rfl⟩
  | cons m members ih =>
    obtain ⟨k, v⟩ := m
    rw [List.forall_mem_cons] at each
    cases k with
    | none =>
      rw [normalizeMembers?] at h
      cases h
    | some k =>
      rw [normalizeMembers?, if_neg (by simp), Option.bind_eq_bind, Option.bind_eq_some_iff] at h
      obtain ⟨w, first, h⟩ := h
      obtain ⟨ws, rest, h⟩ := Option.bind_eq_some_iff.1 h
      cases h
      obtain ⟨same, keys⟩ := ih each.2 rest
      rw [each.1 w first, same]
      simp [keys]

/-- Normalising resolves repeated keys, and changes nothing else. -/
theorem Distinct.eq_of_normalize? {v w : Json} (h : v.Distinct) {depth : Nat}
    (normal : v.normalize? depth = some w) : w = v := by
  induction h generalizing w depth with
  | null | bool =>
    rw [normalize?] at normal
    cases normal
    rfl
  | num n =>
    rw [normalize?] at normal
    split at normal <;> cases normal
    rfl
  | str s =>
    cases s <;> rw [normalize?] at normal <;> cases normal
    rfl
  | arr _ ih =>
    rw [normalize?] at normal
    split at normal
    · cases normal
    · obtain ⟨ws, items, rfl⟩ := Option.map_eq_some_iff.1 normal
      rw [eq_of_normalizeItems? (fun v hv w => ih v hv) items]
  | obj keys _ ih =>
    rw [normalize?] at normal
    split at normal
    · cases normal
    · obtain ⟨ms, members, rfl⟩ := Option.map_eq_some_iff.1 normal
      obtain ⟨rfl, texts⟩ := eq_of_normalizeMembers? (fun m hm w => ih m hm) members
      rw [dropEarlier_of_nodup]
      rw [texts]
      exact List.Pairwise.map some (fun _ _ => mt Option.some.inj) keys

end IceMaze.Json
