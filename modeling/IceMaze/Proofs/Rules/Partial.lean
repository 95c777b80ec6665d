import IceMaze.Proofs.Json.Grammar
import IceMaze.Proofs.Rules.Saving

/-!
Rules of which some are given.

A record gives some of the fields, in any order and with other keys between them (`Record`). A field
that is given once is read as its value, and one that is not given keeps what it has been before
(`Reads.field`). So the standard rules are overridden at the given fields, whatever else the record
holds (`partial_rules_load`).
-/

namespace IceMaze.Rules

open Json

/-- A member of a record: a field with its value, or a key that is not known. -/
inductive Given where
  | momentum (m : Momentum)
  | priority (p : Vector Direction 4)
  | altPatchChance (x : Float)
  | puffleMoveTicks (n : UInt32)
  | blockMoveTicks (n : UInt32)
  | coinBagBonus (n : UInt32)
  | solidHoles (b : Bool)
  | unknown (key : String) (new : key ∉ fieldNames) (v : Json)

def Given.key : Given → String
  | .momentum _ => "momentum"
  | .priority _ => "priority"
  | .altPatchChance _ => "alt_patch_chance"
  | .puffleMoveTicks _ => "puffle_move_ticks"
  | .blockMoveTicks _ => "block_move_ticks"
  | .coinBagBonus _ => "coin_bag_bonus"
  | .solidHoles _ => "solid_holes"
  | .unknown key _ _ => key

/-- The rules with this field as it is given. -/
def override (r : Rules) : Given → Rules
  | .momentum m => { r with momentum := m }
  | .priority p => { r with priority := p }
  | .altPatchChance x => { r with altPatchChance := x }
  | .puffleMoveTicks n => { r with puffleMoveTicks := n.toNat }
  | .blockMoveTicks n => { r with blockMoveTicks := n.toNat }
  | .coinBagBonus n => { r with coinBagBonus := n.toNat }
  | .solidHoles b => { r with solidHoles := b }
  | .unknown _ _ _ => r

/-- A name is a string, or the only key of an object. -/
inductive Named (name : String) : Json → Prop where
  | text : Named name (.text name)
  | key : Named name (.obj [(some name, .null)])

/-- How the value of a member may be given. -/
inductive Given.As : Given → Json → Prop where
  | momentum {m v} (named : Named m.name v) : As (.momentum m) v
  | priority {p vs} (named : List.Forall₂ (fun d v => Named d.name v) p.toList vs) :
      As (.priority p) (.arr vs)
  | altPatchChance {k x} (read : k.toFloat? = some x) : As (.altPatchChance x) (.num k)
  | puffleMoveTicks (n) : As (.puffleMoveTicks n) (.int n.toNat)
  | blockMoveTicks (n) : As (.blockMoveTicks n) (.int n.toNat)
  | coinBagBonus (n) : As (.coinBagBonus n) (.int n.toNat)
  | solidHoles (b) : As (.solidHoles b) (.bool b)
  | unknown {key new v} : As (.unknown key new v) v

/-- The members of an object that gives this. -/
def Record (given : List Given) (members : Members) : Prop :=
  List.Forall₂ (fun g m => m.1 = some g.key ∧ g.As m.2) given members

/-! ## Values -/

theorem toName?_named {name : String} {v : Json} (h : Named name v) : v.toName? = some name := by
  cases h <;> rfl

theorem momentum?_named {m : Momentum} {v : Json} (h : Named m.name v) : momentum? v = some m := by
  rw [momentum?, toName?_named h]
  exact momentum?_name m

theorem direction?_named {d : Direction} {v : Json} (h : Named d.name v) :
    direction? v = some d := by
  rw [direction?, toName?_named h]
  exact direction?_name d

theorem priority?_named {p : Vector Direction 4} {vs : List Json}
    (h : List.Forall₂ (fun d v => Named d.name v) p.toList vs) : priority? (.arr vs) = some p := by
  have read : vs.mapM direction? = some p.toList := by
    generalize p.toList = ds at h
    induction h with
    | nil => rfl
    | cons first _ ih =>
      rw [List.mapM_cons, direction?_named first, ih]
      rfl
  have list : toList? direction? (.arr vs) = some p.toList := by
    rw [toList?, toItems?, Option.bind_eq_bind, Option.bind_some, read]
  obtain ⟨a, b, c, d, rfl⟩ := exists_eq_of_vector p
  rw [priority?, list]
  rfl

theorem count?_toNat (n : UInt32) : count? (.int n.toNat) = some n.toNat :=
  count?_int n.toNat_lt

/-! ## Fields -/

/-- A field of the rules, and the reader of its values. -/
structure Reads {α : Type} (name : String) (get : Rules → α) (read : Json → Option α) : Prop where
  own : ∀ (g : Given) (v : Json) (r : Rules), g.key = name → g.As v →
    read v = some (get (r.override g))
  other : ∀ (g : Given) (r : Rules), g.key ≠ name → get (r.override g) = get r

section
variable {α : Type} {name : String} {get : Rules → α} {read : Json → Option α}
  {given : List Given} {members : Members}

theorem Reads.foldl_override (h : Reads name get read) (absent : name ∉ given.map Given.key)
    (r : Rules) : get (given.foldl override r) = get r := by
  induction given generalizing r with
  | nil => rfl
  | cons g given ih =>
    rw [List.map_cons, List.mem_cons, not_or] at absent
    rw [List.foldl_cons, ih absent.2, h.other g r (Ne.symm absent.1)]

theorem keys_of_record (record : Record given members) :
    members.map Prod.fst = (given.map Given.key).map some := by
  induction record with
  | nil => rfl
  | cons first _ ih => rw [List.map_cons, List.map_cons, List.map_cons, ih, first.1]

/-- A field is read as it is given, or else keeps its default. -/
theorem Reads.field (h : Reads name get read) (record : Record given members)
    (once : (given.map Given.key).count name ≤ 1) (r : Rules) :
    ∃ slot, field? members name = some slot ∧
      withDefault? (get r) read slot = some (get (given.foldl override r)) := by
  induction record generalizing r with
  | nil => exact ⟨none, rfl, rfl⟩
  | @cons g m given members first rest ih =>
    obtain ⟨key, v⟩ := m
    obtain ⟨rfl, value⟩ := first
    rw [List.map_cons] at once
    by_cases same : g.key = name
    · subst same
      have absent : g.key ∉ given.map Given.key := by
        rw [List.count_cons_self] at once
        apply List.count_eq_zero.1
        omega
      have alone : some g.key ∉ members.map Prod.fst := by
        rw [keys_of_record rest]
        simpa using absent
      refine ⟨some v, field?_cons_self alone, ?_⟩
      rw [List.foldl_cons, h.foldl_override absent]
      exact h.own g v r rfl value
    · rw [List.count_cons_of_ne same] at once
      obtain ⟨slot, found, read⟩ := ih once (r.override g)
      refine ⟨slot, ?_, ?_⟩
      · rw [field?_cons_of_ne (by simpa using same), found]
      · rw [List.foldl_cons, ← read, h.other g r same]

end

theorem Given.key_unknown_ne {key name : String} {new : key ∉ fieldNames} {v : Json}
    (known : name ∈ fieldNames) : (Given.unknown key new v).key ≠ name := by
  rintro rfl
  exact new known

theorem reads_momentum : Reads "momentum" momentum momentum? where
  own g v r named as := by
    cases as with
    | momentum value => exact momentum?_named value
    | unknown => exact absurd named (Given.key_unknown_ne (by decide))
    | _ => simp [Given.key] at named
  other g r other := by cases g <;> first | rfl | exact absurd rfl other

theorem reads_priority : Reads "priority" priority priority? where
  own g v r named as := by
    cases as with
    | priority value => exact priority?_named value
    | unknown => exact absurd named (Given.key_unknown_ne (by decide))
    | _ => simp [Given.key] at named
  other g r other := by cases g <;> first | rfl | exact absurd rfl other

theorem reads_altPatchChance : Reads "alt_patch_chance" altPatchChance Json.toFloat? where
  own g v r named as := by
    cases as with
    | altPatchChance value => exact value
    | unknown => exact absurd named (Given.key_unknown_ne (by decide))
    | _ => simp [Given.key] at named
  other g r other := by cases g <;> first | rfl | exact absurd rfl other

theorem reads_puffleMoveTicks : Reads "puffle_move_ticks" puffleMoveTicks count? where
  own g v r named as := by
    cases as with
    | puffleMoveTicks n => exact count?_toNat n
    | unknown => exact absurd named (Given.key_unknown_ne (by decide))
    | _ => simp [Given.key] at named
  other g r other := by cases g <;> first | rfl | exact absurd rfl other

theorem reads_blockMoveTicks : Reads "block_move_ticks" blockMoveTicks count? where
  own g v r named as := by
    cases as with
    | blockMoveTicks n => exact count?_toNat n
    | unknown => exact absurd named (Given.key_unknown_ne (by decide))
    | _ => simp [Given.key] at named
  other g r other := by cases g <;> first | rfl | exact absurd rfl other

theorem reads_coinBagBonus : Reads "coin_bag_bonus" coinBagBonus count? where
  own g v r named as := by
    cases as with
    | coinBagBonus n => exact count?_toNat n
    | unknown => exact absurd named (Given.key_unknown_ne (by decide))
    | _ => simp [Given.key] at named
  other g r other := by cases g <;> first | rfl | exact absurd rfl other

theorem reads_solidHoles : Reads "solid_holes" solidHoles Json.toBool? where
  own g v r named as := by
    cases as with
    | solidHoles b => rfl
    | unknown => exact absurd named (Given.key_unknown_ne (by decide))
    | _ => simp [Given.key] at named
  other g r other := by cases g <;> first | rfl | exact absurd rfl other

/-! ## Records -/

section
variable {given : List Given} {members : Members}

theorem fields?_record (record : Record given members) :
    fields? fieldNames .ignored (.obj members) = fieldNames.mapM (field? members) := by
  apply if_pos
  rw [List.all_eq_true]
  intro m hm
  have text : m.1 ∈ members.map Prod.fst := List.mem_map_of_mem hm
  rw [keys_of_record record, List.mem_map] at text
  obtain ⟨key, _, same⟩ := text
  rw [← same]
  rfl

/-- The standard rules are overridden at the fields that are given. -/
theorem ofJson?_record (record : Record given members)
    (once : ∀ name ∈ fieldNames, (given.map Given.key).count name ≤ 1) :
    ofJson? (.obj members) = some (given.foldl override standard) := by
  obtain ⟨m, hm, momentum⟩ := reads_momentum.field record (once _ (by decide)) standard
  obtain ⟨p, hp, priority⟩ := reads_priority.field record (once _ (by decide)) standard
  obtain ⟨x, hx, chance⟩ := reads_altPatchChance.field record (once _ (by decide)) standard
  obtain ⟨a, ha, puffle⟩ := reads_puffleMoveTicks.field record (once _ (by decide)) standard
  obtain ⟨b, hb, block⟩ := reads_blockMoveTicks.field record (once _ (by decide)) standard
  obtain ⟨c, hc, bonus⟩ := reads_coinBagBonus.field record (once _ (by decide)) standard
  obtain ⟨s, hs, holes⟩ := reads_solidHoles.field record (once _ (by decide)) standard
  have slots : fields? fieldNames .ignored (.obj members) = some [m, p, x, a, b, c, s] := by
    rw [fields?_record record]
    simp only [fieldNames, List.mapM_cons, List.mapM_nil, hm, hp, hx, ha, hb, hc, hs]
    rfl
  rw [ofJson?, slots]
  simp only [Option.bind_eq_bind, Option.bind_some, momentum, priority, chance, puffle, block,
    bonus, holes]
  rfl

end

/-- Some of the fields, with whatever other members, override the standard rules; these are then
checked. -/
theorem partial_rules_load {given : List Given} {members : Members} {s : String}
    (record : Record given members)
    (once : ∀ name ∈ fieldNames, (given.map Given.key).count name ≤ 1)
    (text : Spread (tokens (.obj members)) s.toList) :
    ((given.foldl override standard).validate = .ok () →
      ofText s = .ok (given.foldl override standard)) ∧
    ∀ e, (given.foldl override standard).validate = .error e → ofText s = .error e := by
  have decoded : decode s = .ok (given.foldl override standard) := by
    rw [decode, read?_eq_some.2 text]
    dsimp only
    rw [ofJson?_record record once]
  constructor
  · intro passed
    exact ofText_of_ok decoded passed
  · intro e failed
    exact ofText_of_error decoded failed

/-- A number that is too large, and a string without a text. -/
def oddity : Json := .arr [.num ⟨true, ['1'], [], some (false, "9999".toList)⟩, .str none]

def stray (v : Json) : Given := .unknown "x" (by decide) v

/-- Unknown keys stand before the fields, and one of them is repeated. -/
theorem partial_rules_load_among_strays :
    ofText ("\t\x7b \"x\" : [-1E+9999, \"\\ud800\"] ,\r\n\"puffle_move_tick\\u0073\":7," ++
        "\"momentum\":\x7b\"single\":null\x7d\x7d ") =
      .ok { standard with momentum := .single, puffleMoveTicks := 7 } ∧
    ofText "\x7b\"x\":null,\"block_move_ticks\":0,\"x\":null\x7d" = .error .zeroBlockTicks := by
  have record : Record [stray oddity, .puffleMoveTicks 7, .momentum .single]
      [(some "x", oddity), (some "puffle_move_ticks", .int 7),
        (some "momentum", .obj [(some "single", .null)])] :=
    .cons ⟨rfl, .unknown⟩ <| .cons ⟨rfl, .puffleMoveTicks 7⟩ <| .cons ⟨rfl, .momentum .key⟩ .nil
  have record' : Record [stray .null, .blockMoveTicks 0, stray .null]
      [(some "x", .null), (some "block_move_ticks", .int 0), (some "x", .null)] :=
    .cons ⟨rfl, .unknown⟩ <| .cons ⟨rfl, .blockMoveTicks 0⟩ <| .cons ⟨rfl, .unknown⟩ .nil
  have valid : ([stray oddity, .puffleMoveTicks 7, .momentum .single].foldl override
      standard).validate = .ok () := by
    refine validate_eq_ok.2 ⟨by decide +kernel, by decide, by decide, ?_⟩
    intro d
    cases d <;> decide
  have invalid : ([stray .null, .blockMoveTicks 0, stray .null].foldl override
      standard).validate = .error .zeroBlockTicks := by
    rw [validate, if_neg (by decide +kernel), if_neg (by decide), if_pos (by decide)]
  constructor
  · refine (partial_rules_load record (by decide) (spread_of_tokens? ?_)).1 valid
    decide +kernel
  · refine (partial_rules_load record' (by decide) (spread_of_tokens? ?_)).2 _ invalid
    decide +kernel

end IceMaze.Rules
