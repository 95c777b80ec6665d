import IceMaze.Level.Record
import IceMaze.Proofs.Json.Compact
import IceMaze.Proofs.Level.Bounds
import Mathlib.Data.List.Nodup

/-!
A level by itself, and a file of this one level.

The values of a file are made normal before they are decoded, the value of a single level is not.
Where no object repeats a key this makes no difference: a value that can be decoded is normal
already (`normal_of_ofJson?`), and one that is made normal stays as it is. So both readers come to
the same level, or to the same error (`single_level_agrees_with_file`).
-/

namespace IceMaze

namespace LevelRecord

open Json

/-! ## What can be decoded is normal -/

section
variable {α : Type} {depth : Nat} {v : Json}

theorem exists_of_mapM {β : Type} {f : α → Option β} {as : List α} {bs : List β}
    (h : as.mapM f = some bs) : ∀ a ∈ as, ∃ b ∈ bs, f a = some b := by
  induction as generalizing bs with
  | nil => nofun
  | cons a as ih =>
    rw [List.mapM_cons, Option.bind_eq_bind, Option.bind_eq_some_iff] at h
    obtain ⟨b, first, h⟩ := h
    obtain ⟨bs', rest, h⟩ := Option.bind_eq_some_iff.1 h
    cases h
    refine List.forall_mem_cons.2 ⟨⟨b, List.mem_cons_self, first⟩, fun a' ha' => ?_⟩
    obtain ⟨b', hb', same⟩ := ih rest a' ha'
    exact ⟨b', List.mem_cons_of_mem b hb', same⟩

/-- Every value that can be decoded is normal. -/
def DecodesNormal (depth : Nat) (f : Json → Option α) : Prop :=
  ∀ v a, f v = some a → Json.Normal depth v

theorem normal_toInt? {least bound : Int} : DecodesNormal depth (Json.toInt? least bound) := by
  intro v i h
  cases v with
  | num n =>
    obtain ⟨whole, _⟩ := Option.filter_eq_some_iff.1 h
    simp [Json.Normal, normalize?, whole]
  | _ => cases h

theorem normal_toList? {f : Json → Option α} (items : DecodesNormal depth f) :
    DecodesNormal (depth + 1) (toList? f) := by
  intro v as h
  cases v with
  | arr vs =>
    refine normal_arr fun w hw => ?_
    obtain ⟨a, _, decoded⟩ := exists_of_mapM (f := f) h w hw
    exact items w a decoded
  | _ => cases h

theorem normal_cell? : DecodesNormal (depth + 1) cell? := by
  intro v c h
  obtain ⟨ns, numbers, _⟩ := Option.bind_eq_some_iff.1 h
  exact normal_toList? normal_toInt? v ns numbers

theorem normal_rows? : DecodesNormal (depth + 2) rows? :=
  normal_toList? (normal_toList? normal_toInt?)

/-! ## Fields -/

/-- The value of a field, if there is one, is normal. -/
def FieldNormal (depth : Nat) (field : Option Json) : Prop :=
  ∀ v, field = some v → Json.Normal depth v

theorem normal_optional? {f : Json → Option α} (values : DecodesNormal depth f)
    {field : Option Json} {a : Option α} (h : optional? f field = some a) :
    FieldNormal depth field := by
  rintro v rfl
  cases v with
  | null => simp [Json.Normal, normalize?]
  | _ =>
    obtain ⟨a, decoded, _⟩ := Option.map_eq_some_iff.1 h
    exact values _ a decoded

theorem normal_withDefault? {f : Json → Option α} (values : DecodesNormal depth f)
    {default a : α} {field : Option Json} (h : withDefault? default f field = some a) :
    FieldNormal depth field := by
  rintro v rfl
  exact values v a h

theorem filter_of_field? {members : Members} {key : String} {field : Option Json}
    (h : field? members key = some field) :
    members.filter (·.1 == some key) = (field.map (member key)).toList := by
  unfold field? at h
  split at h
  · rename_i none
    cases h
    exact none
  · rename_i m one
    cases h
    have here : m ∈ members.filter (·.1 == some key) := one ▸ List.mem_singleton_self m
    have named : m.1 = some key := by simpa using (List.mem_filter.1 here).2
    rw [one, Option.map_some, Option.toList_some, member, ← named]
  · cases h

theorem nodup_keys {members : Members}
    (once : ∀ m ∈ members, (members.filter (·.1 == m.1)).length ≤ 1) :
    (members.map Prod.fst).Nodup := by
  refine List.nodup_iff_count_le_one.2 fun k => ?_
  by_cases listed : k ∈ members.map Prod.fst
  · obtain ⟨m, hm, rfl⟩ := List.mem_map.1 listed
    have counted : (members.map Prod.fst).count m.1 = (members.filter (·.1 == m.1)).length := by
      rw [List.count, List.countP_map, List.countP_eq_length_filter]
      rfl
    exact counted ▸ once m hm
  · rw [List.count_eq_zero.2 listed]
    exact Nat.zero_le 1

/-- No key is left over, and none is there twice. -/
theorem normal_fields? {names : List String} {fields : List (Option Json)}
    (h : fields? names .refused v = some fields)
    (each : ∀ field ∈ fields, FieldNormal depth field) : Json.Normal (depth + 1) v := by
  cases v with
  | arr items =>
    simp only [fields?] at h
    split at h
    · cases h
      refine normal_arr fun v hv => each (some v) ?_ v rfl
      exact List.mem_append_left _ (List.mem_map_of_mem hv)
    · cases h
  | obj members =>
    simp only [fields?] at h
    split at h
    · rename_i known
      have found : ∀ m ∈ members, ∃ key field, m.1 = some key ∧ field ∈ fields ∧
          members.filter (·.1 == some key) = (field.map (member key)).toList := by
        intro m hm
        have here := List.all_eq_true.1 known m hm
        cases key : m.1 with
        | none => simp [key] at here
        | some k =>
          have listed : k ∈ names := by simpa [key] using here
          obtain ⟨field, there, only⟩ := exists_of_mapM h k listed
          exact ⟨k, field, rfl, there, filter_of_field? only⟩
      refine normal_obj (fun m hm => ?_) (nodup_keys fun m hm => ?_) fun m hm => ?_ <;>
        obtain ⟨key, field, same, there, only⟩ := found m hm
      · rw [same]
        rfl
      · rw [same, only]
        cases field <;> simp
      · have here : m ∈ members.filter (·.1 == some key) :=
          List.mem_filter.2 ⟨hm, beq_iff_eq.2 same⟩
        rw [only, Option.mem_toList, Option.map_eq_some_iff] at here
        obtain ⟨v, value, rfl⟩ := here
        exact each field there v value
    · cases h
  | _ => cases h

theorem normal_patch? : DecodesNormal (depth + 3) patch? := by
  intro v p h
  obtain ⟨fields, listed, h⟩ := Option.bind_eq_some_iff.1 h
  split at h
  · obtain ⟨map, mapped, h⟩ := Option.bind_eq_some_iff.1 h
    obtain ⟨origin, placed, _⟩ := Option.bind_eq_some_iff.1 h
    refine normal_fields? listed ?_
    simp only [List.forall_mem_cons]
    exact ⟨normal_optional? normal_rows? mapped, normal_optional? normal_cell? placed, nofun⟩
  · cases h

/-- A level is five containers deep. -/
theorem normal_ofJson? : DecodesNormal (depth + 5) ofJson? := by
  intro v r h
  obtain ⟨fields, listed, h⟩ := Option.bind_eq_some_iff.1 h
  split at h
  · obtain ⟨map, mapped, h⟩ := Option.bind_eq_some_iff.1 h
    obtain ⟨origin, placed, h⟩ := Option.bind_eq_some_iff.1 h
    obtain ⟨spawn, spawned, h⟩ := Option.bind_eq_some_iff.1 h
    obtain ⟨keys, keyed, h⟩ := Option.bind_eq_some_iff.1 h
    obtain ⟨blocks, blocked, h⟩ := Option.bind_eq_some_iff.1 h
    obtain ⟨bag, bagged, h⟩ := Option.bind_eq_some_iff.1 h
    obtain ⟨patches, patched, _⟩ := Option.bind_eq_some_iff.1 h
    refine normal_fields? listed ?_
    simp only [List.forall_mem_cons]
    exact ⟨normal_optional? normal_rows? mapped, normal_optional? normal_cell? placed,
      normal_optional? normal_cell? spawned,
      normal_withDefault? (normal_toList? normal_cell?) keyed,
      normal_withDefault? (normal_toList? normal_cell?) blocked,
      normal_optional? normal_cell? bagged,
      normal_withDefault? (normal_toList? normal_patch?) patched, nofun⟩
  · cases h

end

/-! ## A file of one level -/

section
variable {s : List Char} {v : Json}

/-- What stays of the value between the brackets. -/
theorem file?_enclosed (read : Json.read? s = some v) (distinct : v.Distinct) :
    file? ('[' :: (s ++ [']'])) = (v.normalize? 126).map fun _ => [v] := by
  have inside : maxDepth - 1 = 126 := rfl
  have items : normalizeItems? 126 [v] = (v.normalize? 126).map fun w => [w] := by
    rw [normalizeItems?, normalizeItems?]
    cases v.normalize? 126 <;> rfl
  rw [file?, read?_enclosed read, Option.bind_eq_bind, Option.bind_some, normalize?,
    if_neg (by decide), inside, items]
  cases kept : v.normalize? 126 with
  | none => rfl
  | some w =>
    cases distinct.eq_of_normalize? kept
    rfl

theorem readLevels_singleton (v : Json) :
    readLevels 1 [v] = ((readLevel v).mapError (.inLevel 1)).map fun l => [l] := by
  rw [readLevels]
  cases readLevel v <;> rfl

end

end LevelRecord

open LevelRecord in
/-- For one value in which no object repeats a key, reading it as a level and reading it as the only
one of a file come to the same level, or to the same error in level 1. Only where the value is no
level at all, a file may be refused for its form instead. -/
theorem single_level_agrees_with_file (t : String) (v : Json) (one : Json.read? t.toList = some v)
    (distinct : v.Distinct) :
    (∀ l, Level.ofJsonText t = .ok l ↔ Level.listOfJsonText ("[" ++ t ++ "]") = .ok [l]) ∧
    (∀ e, e ≠ .json → (Level.ofJsonText t = .error e ↔
      Level.listOfJsonText ("[" ++ t ++ "]") = .error (.inLevel 1 e))) ∧
    (Level.ofJsonText t = .error .json ↔
      Level.listOfJsonText ("[" ++ t ++ "]") = .error .json ∨
      Level.listOfJsonText ("[" ++ t ++ "]") = .error (.inLevel 1 .json)) := by
  have text : ("[" ++ t ++ "]").toList = '[' :: (t.toList ++ [']']) := by simp
  have alone : Level.ofJsonText t = readLevel v := by
    rw [Level.ofJsonText, one]
  have file : Level.listOfJsonText ("[" ++ t ++ "]") =
      if (v.normalize? 126).isSome then ((readLevel v).mapError (.inLevel 1)).map fun l => [l]
      else .error .json := by
    rw [Level.listOfJsonText, text, file?_enclosed one distinct]
    cases v.normalize? 126 with
    | none => rfl
    | some w => exact readLevels_singleton v
  rw [alone, file]
  cases kept : v.normalize? 126 with
  | none =>
    have refused : readLevel v = .error .json := by
      rw [readLevel]
      cases decoded : ofJson? v with
      | none => rfl
      | some r =>
        have normal : Json.Normal (121 + 5) v := normal_ofJson? v r decoded
        cases kept.symm.trans normal
    rw [refused]
    simp [eq_comm]
  | some w =>
    cases readLevel v <;> simp [Except.map]

/-- A tile of ice beside the goal. -/
def ledge : Level where
  origin := .zero
  spawn := ⟨1, 0⟩
  tiles := .set (.filled 2 1 .ice) 0 0 .goal
  keys := []
  blocks := []
  bag := none
  patches := []

theorem distinct_ints (ns : List Int) : (Json.arr (ns.map .int)).Distinct := by
  refine .arr fun v hv => ?_
  obtain ⟨n, _, rfl⟩ := List.mem_map.1 hv
  exact .num _

/-- An object with white space and an escaped key is read as the level, and an array of fields is
refused for its start, in the file as alone. -/
theorem single_level_agrees_with_file_on_ledge :
    ∃ t v t' v', Json.read? t.toList = some v ∧ v.Distinct ∧
      Json.read? t'.toList = some v' ∧ v'.Distinct ∧
      t = " \x7b\"m\": [[4, 1]], \"\\u0073\": [1, 0]\x7d\n" ∧ t' = "[[[1]], null, [5, 0]]" ∧
      Level.ofJsonText t = .ok ledge ∧ Level.listOfJsonText ("[" ++ t ++ "]") = .ok [ledge] ∧
      Level.listOfJsonText ("[" ++ t' ++ "]") =
        .error (.inLevel 1 (.outOfBounds .puffle ⟨5, 0⟩)) := by
  let t := " \x7b\"m\": [[4, 1]], \"\\u0073\": [1, 0]\x7d\n"
  let t' := "[[[1]], null, [5, 0]]"
  have one : Json.read? t.toList = some (.obj [(some "m", .arr [.arr [.int 4, .int 1]]),
      (some "s", .arr [.int 1, .int 0])]) := by
    have scanned : Json.tokens? t.toList = some [.braceOpen, .str (some "m"), .colon,
        .bracketOpen, .bracketOpen, .num (.ofInt 4), .comma, .num (.ofInt 1), .bracketClose,
        .bracketClose, .comma, .str (some "s"), .colon, .bracketOpen, .num (.ofInt 1), .comma,
        .num (.ofInt 0), .bracketClose, .braceClose] := by decide +kernel
    rw [Json.read?, scanned]
    rfl
  have one' : Json.read? t'.toList =
      some (.arr [.arr [.arr [.int 1]], .null, .arr [.int 5, .int 0]]) := by
    have scanned : Json.tokens? t'.toList = some [.bracketOpen, .bracketOpen, .bracketOpen,
        .num (.ofInt 1), .bracketClose, .bracketClose, .comma, .null, .comma, .bracketOpen,
        .num (.ofInt 5), .comma, .num (.ofInt 0), .bracketClose, .bracketClose] := by
      decide +kernel
    rw [Json.read?, scanned]
    rfl
  have distinct : (Json.obj [(some "m", .arr [.arr [.int 4, .int 1]]),
      (some "s", .arr [.int 1, .int 0])]).Distinct := by
    refine .obj (by decide) ?_
    simp only [List.forall_mem_cons]
    exact ⟨.arr (List.forall_mem_singleton.2 (distinct_ints [4, 1])), distinct_ints [1, 0], nofun⟩
  have distinct' : (Json.arr [.arr [.arr [.int 1]], .null, .arr [.int 5, .int 0]]).Distinct := by
    refine .arr ?_
    simp only [List.forall_mem_cons]
    exact ⟨.arr (List.forall_mem_singleton.2 (distinct_ints [1])), .null, distinct_ints [5, 0],
      nofun⟩
  have alone : Level.ofJsonText t = .ok ledge := by decide +kernel
  have alone' : Level.ofJsonText t' = .error (.outOfBounds .puffle ⟨5, 0⟩) := by decide +kernel
  obtain ⟨same, _⟩ := single_level_agrees_with_file t _ one distinct
  obtain ⟨_, same', _⟩ := single_level_agrees_with_file t' _ one' distinct'
  exact ⟨t, _, t', _, one, distinct, one', distinct', rfl, rfl, alone, (same _).1 alone,
    (same' (.outOfBounds .puffle ⟨5, 0⟩) nofun).1 alone'⟩

end IceMaze
