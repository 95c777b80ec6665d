import IceMaze.Proofs.Json.Pretty
import IceMaze.Proofs.Json.Records
import IceMaze.Proofs.Number.Layout
import IceMaze.Proofs.Rules.Validation
import IceMaze.Rules.File

/-!
Saved rules are loaded again.

The record of all rules is written over several lines and read back field by field: `decode_toText`
gives the rules that were written, whether they make sense or not. What is left is their check
(`ofText_toText`), and what a file keeps between `save` and `load` (`load_save`).

The chance is the only field that may come back changed, since its numeral is not always read as
the nearest floating-point number. So its coming back is assumed (`Savable.reread`).
-/

namespace IceMaze.Rules

open Json

variable {r : Rules}

/-! ## Records -/

/-- The counts fit 32 bits, and the chance is a number that its numeral is read as. -/
structure Savable (r : Rules) : Prop where
  finite : r.altPatchChance.isFinite = true
  reread : (Layout.file.ofFloat r.altPatchChance).toFloat? = some r.altPatchChance
  puffle : r.puffleMoveTicks < UInt32.size
  block : r.blockMoveTicks < UInt32.size
  bonus : r.coinBagBonus < UInt32.size

def fields (r : Rules) : List (String × Option Json) :=
  [("momentum", some (.text r.momentum.name)),
    ("priority", some (.arr (r.priority.toList.map fun d => .text d.name))),
    ("alt_patch_chance", some (floatJson r.altPatchChance)),
    ("puffle_move_ticks", some (.int r.puffleMoveTicks)),
    ("block_move_ticks", some (.int r.blockMoveTicks)),
    ("coin_bag_bonus", some (.int r.coinBagBonus)),
    ("solid_holes", some (.bool r.solidHoles))]

theorem toJson_eq (r : Rules) : r.toJson = .obj (present r.fields) := rfl

theorem momentum?_name (m : Momentum) : momentum? (.text m.name) = some m := by
  cases m <;> decide

theorem direction?_name (d : Direction) : direction? (.text d.name) = some d :=
  Direction.ofName?_name d

theorem exists_eq_of_vector (p : Vector Direction 4) : ∃ a b c d, p = #v[a, b, c, d] := by
  obtain ⟨⟨ds⟩, four⟩ := p
  match ds, four with
  | [a, b, c, d], _ => exact ⟨a, b, c, d, rfl⟩

theorem priority?_names (p : Vector Direction 4) :
    priority? (.arr (p.toList.map fun d => .text d.name)) = some p := by
  have read : toList? direction? (.arr (p.toList.map fun d => .text d.name)) = some p.toList :=
    toList?_arr fun d _ => direction?_name d
  obtain ⟨a, b, c, d, rfl⟩ := exists_eq_of_vector p
  rw [priority?, read]
  rfl

theorem count?_int {n : Nat} (fits : n < UInt32.size) : count? (.int n) = some n := by
  have size : UInt32.size = 4294967296 := rfl
  rw [count?, toInt?_int (by omega) (by omega) (by omega)]
  rfl

theorem toFloat?_floatJson (h : r.Savable) :
    (floatJson r.altPatchChance).toFloat? = some r.altPatchChance := by
  rw [floatJson, if_pos h.finite]
  exact h.reread

theorem ofJson?_toJson (h : r.Savable) : ofJson? r.toJson = some r := by
  have distinct : (r.fields.map Prod.fst).Nodup := by
    change fieldNames.Nodup
    decide
  have read := fields?_present distinct .ignored
  have names : r.fields.map Prod.fst = fieldNames := rfl
  rw [← toJson_eq, names] at read
  rw [ofJson?, read]
  simp only [fields, List.map_cons, List.map_nil, Option.bind_eq_bind, Option.bind_some,
    withDefault?, momentum?_name, priority?_names, toFloat?_floatJson h, count?_int h.puffle,
    count?_int h.block, count?_int h.bonus]
  rfl

/-! ## Texts -/

theorem legible_floatJson (x : Float) : (floatJson x).Legible := by
  unfold floatJson
  split
  · exact .num (Layout.file.proper_ofFloat x)
  · exact .null

theorem legible_toJson (r : Rules) : r.toJson.Legible := by
  rw [toJson_eq]
  refine .obj (fun m hm => ?_) fun m hm => ?_
  · obtain ⟨f, _, v, _, rfl⟩ := mem_present.1 hm
    rfl
  · have names : (Json.arr (r.priority.toList.map fun d => .text d.name)).Legible := by
      refine .arr fun v hv => ?_
      obtain ⟨d, _, rfl⟩ := List.mem_map.1 hv
      exact .str d.name
    obtain ⟨f, hf, v, hv, rfl⟩ := mem_present.1 hm
    simp only [fields, List.mem_cons, List.not_mem_nil, or_false] at hf
    rcases hf with rfl | rfl | rfl | rfl | rfl | rfl | rfl <;> cases hv
    · exact .str _
    · exact names
    · exact legible_floatJson _
    · exact legible_int _
    · exact legible_int _
    · exact legible_int _
    · exact .bool _

/-- Rules come back as they were written, whether they make sense or not. -/
theorem decode_toText (h : r.Savable) : decode r.toText = .ok r := by
  rw [decode, toText, String.toList_ofList, read?_pretty r.legible_toJson]
  dsimp only
  rw [ofJson?_toJson h]

theorem ofText_of_ok {s : String} (decoded : decode s = .ok r) (passed : r.validate = .ok ()) :
    ofText s = .ok r := by
  rw [ofText, decoded]
  change (do r.validate; return r) = Except.ok r
  rw [passed]
  rfl

theorem ofText_of_error {s : String} (decoded : decode s = .ok r) {e : RulesError}
    (failed : r.validate = .error e) : ofText s = .error e := by
  rw [ofText, decoded]
  change (do r.validate; return r) = Except.error e
  rw [failed]
  rfl

theorem ofText_toText_of_ok (h : r.Savable) (passed : r.validate = .ok ()) :
    ofText r.toText = .ok r :=
  ofText_of_ok (decode_toText h) passed

theorem ofText_toText_of_error (h : r.Savable) {e : RulesError} (failed : r.validate = .error e) :
    ofText r.toText = .error e :=
  ofText_of_error (decode_toText h) failed

/-! ## Files -/

variable {f f' : Folder} {path : String} {line : LogLine}

theorem readText_of_save (saved : (save Folder.access path r).run f = (.ok line, f')) :
    f'.readText path = .ok r.toText := by
  cases written : f.writeText path r.toText with
  | error reason =>
    simp only [save, Folder.access, StateT.run_bind, StateT.run_get, pure_bind, written,
      StateT.run_pure] at saved
    cases saved
  | ok g =>
    simp only [save, Folder.access, StateT.run_bind, StateT.run_get, pure_bind, written,
      StateT.run_set, StateT.run_pure] at saved
    cases saved
    exact Folder.readText_writeText written

theorem run_load_of_ok {s : String} (text : f.readText path = .ok s) (made : ofText s = .ok r) :
    (load Folder.access path).run f = ((r, ⟨.info, s!"Loaded rules from {path}"⟩), f) := by
  simp only [load, read, Folder.access, StateT.run_bind, StateT.run_get, pure_bind, text, made,
    StateT.run_pure]
  rfl

theorem run_load_of_error {s : String} (text : f.readText path = .ok s) {e : RulesError}
    (made : ofText s = .error e) : (load Folder.access path).run f =
      ((standard, ⟨.warn, s!"{e.message}; using default rules"⟩), f) := by
  simp only [load, read, Folder.access, StateT.run_bind, StateT.run_get, pure_bind, text, made,
    StateT.run_pure]
  rfl

/-- Rules that make sense are read back as they are, and others are refused for what their check
finds. So loading rules after they have been saved gives them again, or else the standard ones. -/
theorem saved_rules_load (h : r.Savable) :
    (r.validate = .ok () → ofText r.toText = .ok r) ∧
    (∀ e, r.validate = .error e → ofText r.toText = .error e) ∧
    ∀ (f f' : Folder) (path : String) (line : LogLine),
      (save Folder.access path r).run f = (.ok line, f') →
        (r.validate = .ok () →
          (load Folder.access path).run f' =
            ((r, ⟨.info, s!"Loaded rules from {path}"⟩), f')) ∧
        (∀ e, r.validate = .error e →
          (load Folder.access path).run f' =
            ((standard, ⟨.warn, s!"{e.message}; using default rules"⟩), f')) := by
  refine ⟨ofText_toText_of_ok h, fun e => ofText_toText_of_error h, fun f f' path line saved => ?_⟩
  have text := readText_of_save saved
  constructor
  · intro passed
    exact run_load_of_ok text (ofText_toText_of_ok h passed)
  · intro e failed
    exact run_load_of_error text (ofText_toText_of_error h failed)

/-- Nothing is as in the standard rules. -/
def hurried : Rules where
  momentum := .single
  priority := #v[.right, .up, .left, .down]
  altPatchChance := 0.25
  puffleMoveTicks := 7
  blockMoveTicks := 1
  coinBagBonus := 4294967295
  solidHoles := true

/-- One direction has two places, and one has none. -/
def lopsided : Rules := { hurried with priority := #v[.right, .right, .left, .down] }

/-- The folder in which the rules are the only file. -/
def alone (r : Rules) : Folder := ⟨[(⟨some 0, "rules.json"⟩, r.toText)]⟩

theorem run_save_alone (r : Rules) : (save Folder.access "rules.json" r).run ⟨[]⟩ =
    (.ok ⟨.info, "Rules saved to rules.json"⟩, r.alone) := by
  have written : (⟨[]⟩ : Folder).writeText "rules.json" r.toText = .ok r.alone := by
    unfold alone
    generalize r.toText = text
    rfl
  simp only [save, Folder.access, StateT.run_bind, StateT.run_get, pure_bind, written,
    StateT.run_set, StateT.run_pure]
  rfl

theorem saved_rules_load_hurried :
    (hurried.Savable ∧ hurried.validate = .ok () ∧ ofText hurried.toText = .ok hurried ∧
      ((load Folder.access "rules.json").run hurried.alone).1.1 = hurried) ∧
    (lopsided.Savable ∧ lopsided.validate = .error .badPriority ∧
      ofText lopsided.toText = .error .badPriority ∧
      ((load Folder.access "rules.json").run lopsided.alone).1.1 = standard) := by
  have fast : hurried.Savable :=
    ⟨by decide +kernel, by decide +kernel, by decide, by decide, by decide⟩
  have valid : hurried.validate = .ok () := by
    refine validate_eq_ok.2 ⟨by decide +kernel, by decide, by decide, fun d => ?_⟩
    cases d <;> decide
  have odd : lopsided.Savable := ⟨fast.finite, fast.reread, fast.puffle, fast.block, fast.bonus⟩
  have invalid : lopsided.validate = .error .badPriority := by
    rw [validate, if_neg (by decide +kernel), if_neg (by decide), if_neg (by decide),
      if_pos (by decide)]
  obtain ⟨kept, _, loaded⟩ := saved_rules_load fast
  obtain ⟨_, refused, replaced⟩ := saved_rules_load odd
  refine ⟨⟨fast, valid, kept valid, ?_⟩, odd, invalid, refused _ invalid, ?_⟩
  · rw [(loaded _ _ _ _ hurried.run_save_alone).1 valid]
  · rw [(replaced _ _ _ _ lopsided.run_save_alone).2 _ invalid]

-- the numeral 1.0431573143271578e-7 is read as the floating-point number that follows
example : (Layout.file.ofFloat (Float.ofBits 0x3e7c0085c1359208)).toFloat? =
    some (Float.ofBits 0x3e7c0085c1359209) := by
  decide +kernel

end IceMaze.Rules
