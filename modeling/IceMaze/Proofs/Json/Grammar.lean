import IceMaze.Proofs.Json.Tokens
import Mathlib.Data.List.Chain

/-!
The texts of a value.

A value is written as its tokens, with white space at will around them (`Spread`), each in any of the
ways that it may be written. The reader accepts these texts and no others (`read?_eq_some`). It finds the
tokens because no two numerals stand side by side (`apart_tokens`), and it makes no other value from
them because every token that it has passed belongs to the value in the end (`consumed_step`). So a value
between brackets is read as the only item of an array (`read?_enclosed`).
-/

namespace IceMaze.Json

/-! ## The tokens of a value -/

mutual

def tokens : Json → List Token
  | .null => [.null]
  | .bool b => [.bool b]
  | .num n => [.num n]
  | .str s => [.str s]
  | .arr items => .bracketOpen :: itemTokens items ++ [.bracketClose]
  | .obj members => .braceOpen :: memberTokens members ++ [.braceClose]

def itemTokens : List Json → List Token
  | [] => []
  | [v] => tokens v
  | v :: w :: vs => tokens v ++ .comma :: itemTokens (w :: vs)

def memberTokens : Members → List Token
  | [] => []
  | [(k, v)] => .str k :: .colon :: tokens v
  | (k, v) :: m :: ms => .str k :: .colon :: tokens v ++ .comma :: memberTokens (m :: ms)

end

theorem itemTokens_eq (items : List Json) :
    itemTokens items = [.comma].intercalate (items.map tokens) := by
  induction items with
  | nil => rfl
  | cons v items ih =>
    cases items with
    | nil => rw [itemTokens, List.map_singleton, List.intercalate_singleton]
    | cons w items => simp [itemTokens, ih]

theorem memberTokens_eq (members : Members) : memberTokens members =
    [.comma].intercalate (members.map fun m => .str m.1 :: .colon :: tokens m.2) := by
  induction members with
  | nil => rfl
  | cons m members ih =>
    cases members with
    | nil => rw [memberTokens, List.map_singleton, List.intercalate_singleton]
    | cons n members => simp [memberTokens, ih]

/-- An induction over the values inside a value. -/
@[elab_as_elim]
theorem nested_induction {P : Json → Prop} (null : P .null) (bool : ∀ b, P (.bool b))
    (num : ∀ n, P (.num n)) (str : ∀ s, P (.str s))
    (arr : ∀ items : List Json, (∀ v ∈ items, P v) → P (.arr items))
    (obj : ∀ members : Members, (∀ m ∈ members, P m.2) → P (.obj members)) (v : Json) : P v :=
  @Json.rec P (fun items => ∀ v ∈ items, P v) (fun members => ∀ m ∈ members, P m.2)
    (fun m => P m.2) null bool num str arr obj nofun
    (fun _ _ first rest => List.forall_mem_cons.2 ⟨first, rest⟩) nofun
    (fun _ _ first rest => List.forall_mem_cons.2 ⟨first, rest⟩) (fun _ _ value => value) v

/-! ## Layout -/

/-- A text of these tokens, with white space around them. -/
inductive Spread : List Token → List Char → Prop where
  | blank {b} (spaces : ∀ c ∈ b, isSpace c = true) : Spread [] b
  | token {b t word ts s} (spaces : ∀ c ∈ b, isSpace c = true) (written : Token.Written t word)
      (rest : Spread ts s) : Spread (t :: ts) (b ++ (word ++ s))

section
variable {t : Token} {ts : List Token} {word s : List Char}

theorem Spread.blanks {b : List Char} (spaces : ∀ c ∈ b, isSpace c = true) (h : Spread ts s) :
    Spread ts (b ++ s) := by
  cases h with
  | blank spaces' => exact .blank (List.forall_mem_append.2 ⟨spaces, spaces'⟩)
  | token spaces' written rest =>
    rw [← List.append_assoc]
    exact .token (List.forall_mem_append.2 ⟨spaces, spaces'⟩) written rest

theorem Spread.append {us : List Token} {u : List Char} (h : Spread ts s) (h' : Spread us u) :
    Spread (ts ++ us) (s ++ u) := by
  induction h with
  | blank spaces => exact h'.blanks spaces
  | token spaces written _ ih =>
    rw [List.append_assoc, List.append_assoc]
    exact .token spaces written ih

theorem Spread.single (written : t.Written word) : Spread [t] word := by
  have alone : Spread [t] ([] ++ (word ++ [])) := .token nofun written (.blank nofun)
  rwa [List.nil_append, List.append_nil] at alone

/-- A token, and the text that follows it. -/
theorem Spread.mark {c : Char} (h : Spread ts s) (written : t.Written [c]) :
    Spread (t :: ts) (c :: s) := (Spread.single written).append h

/-- Texts with commas between them. -/
theorem Spread.separated {α : Type} {xs : List α} {write : α → List Char}
    {tokensOf : α → List Token} (each : ∀ x ∈ xs, Spread (tokensOf x) (write x)) :
    Spread ([.comma].intercalate (xs.map tokensOf)) ([','].intercalate (xs.map write)) := by
  induction xs with
  | nil => exact .blank nofun
  | cons x xs ih =>
    rw [List.forall_mem_cons] at each
    cases xs with
    | nil =>
      simp only [List.map_singleton, List.intercalate_singleton]
      exact each.1
    | cons y ys =>
      have all := each.1.append ((ih each.2).mark .comma)
      simpa using all

end

/-! ## Scanning -/

/-- One of two neighbours is a mark, so neither goes on with the other. -/
def Apart (t u : Token) : Prop := t.IsMark ∨ u.IsMark

section
variable {t : Token} {ts : List Token} {word s : List Char}

theorem isSpace_ends {c : Char} (h : isSpace c = true) (s : List Char) : Ends (c :: s) := by
  simp only [isSpace, Bool.or_eq_true, decide_eq_true_eq] at h
  apply Ends.cons
  rcases h with ((rfl | rfl) | rfl) | rfl <;> decide

theorem Spread.ends (h : Spread ts s) (mark : ∀ t ∈ ts.head?, t.IsMark) : Ends s := by
  have behind {b s : List Char} (spaces : ∀ c ∈ b, isSpace c = true) (ends : Ends s) :
      Ends (b ++ s) := by
    cases b with
    | nil => exact ends
    | cons c b => exact isSpace_ends (spaces c List.mem_cons_self) (b ++ s)
  cases h with
  | blank spaces =>
    rw [← List.append_nil s]
    exact behind spaces .nil
  | token spaces written rest =>
    apply behind spaces
    have first := mark _ rfl
    simp only [Token.IsMark, List.mem_cons, List.not_mem_nil, or_false] at first
    rcases first with rfl | rfl | rfl | rfl | rfl | rfl <;> cases written <;>
      exact .cons (by decide) _

theorem tokens?_of_spread (h : Spread ts s) (apart : ts.IsChain Apart) : tokens? s = some ts := by
  induction h with
  | @blank b spaces =>
    have none : b.dropWhile isSpace = [] := List.dropWhile_eq_nil_iff.2 spaces
    rw [tokens?_eq, none]
  | @token b t word ts s spaces written rest ih =>
    have ends : t.IsMark ∨ Ends s := by
      cases ts with
      | nil => exact .inr (rest.ends nofun)
      | cons u us =>
        rw [List.isChain_cons_cons] at apart
        rcases apart.1 with mark | mark
        · exact .inl mark
        · apply Or.inr
          apply rest.ends
          rintro _ ⟨⟩
          exact mark
    obtain ⟨c, more, text, printed⟩ := written.head
    have first : ∀ d ∈ (word ++ s).head?, isSpace d = false := by
      rw [text]
      rintro _ ⟨⟩
      exact printed
    rw [tokens?_blanks spaces, tokens?_of_scan? (written.scan? ends) first,
      ih apart.of_cons]
    rfl

theorem spread_of_tokens? (h : tokens? s = some ts) : Spread ts s := by
  fun_induction tokens? s generalizing ts with
  | case1 s blank =>
    cases h
    exact .blank (List.dropWhile_eq_nil_iff.1 blank)
  | case2 => cases h
  | case3 s c rest first k more scanned ih =>
    obtain ⟨ks, later, rfl⟩ := Option.map_eq_some_iff.1 h
    obtain ⟨w, written, text⟩ := Token.written_of_scan? scanned
    have whole : s = s.takeWhile isSpace ++ (w ++ more) := by
      rw [← text, ← first, List.takeWhile_append_dropWhile]
    rw [whole]
    exact .token (fun c hc => List.mem_takeWhile_imp hc) written (ih later)

end

section
variable {t : Token} {us vs : List Token}

theorem apart_cons (mark : t.IsMark) (h : us.IsChain Apart) : (t :: us).IsChain Apart :=
  List.isChain_cons.2 ⟨fun _ _ => .inl mark, h⟩

theorem apart_append (mark : t.IsMark) (left : us.IsChain Apart)
    (right : (t :: vs).IsChain Apart) : (us ++ t :: vs).IsChain Apart := by
  apply List.isChain_append.2
  refine ⟨left, right, ?_⟩
  rintro _ _ _ ⟨⟩
  exact .inr mark

theorem apart_separated {parts : List (List Token)} (each : ∀ us ∈ parts, us.IsChain Apart) :
    ([.comma].intercalate parts).IsChain Apart := by
  induction parts with
  | nil => exact .nil
  | cons us parts ih =>
    rw [List.forall_mem_cons] at each
    cases parts with
    | nil =>
      rw [List.intercalate_singleton]
      exact each.1
    | cons ws parts =>
      have text : [Token.comma].intercalate (us :: ws :: parts) =
          us ++ .comma :: [.comma].intercalate (ws :: parts) := by simp
      have mark : Token.comma.IsMark := by decide
      rw [text]
      exact apart_append mark each.1 (apart_cons mark (ih each.2))

end

theorem apart_tokens (v : Json) : (tokens v).IsChain Apart := by
  induction v using nested_induction with
  | null | bool | num | str => exact .singleton _
  | arr items ih =>
    have inside := apart_separated (List.forall_mem_map.2 ih)
    rw [← itemTokens_eq] at inside
    exact apart_cons (by decide) (apart_append (by decide) inside (.singleton _))
  | obj members ih =>
    have each : ∀ us ∈ members.map fun m => Token.str m.1 :: .colon :: tokens m.2,
        us.IsChain Apart := by
      intro us hus
      obtain ⟨m, hm, rfl⟩ := List.mem_map.1 hus
      have colon : Token.colon.IsMark := by decide
      exact apart_append colon (.singleton _) (apart_cons colon (ih m hm))
    have inside := apart_separated each
    rw [← memberTokens_eq] at inside
    exact apart_cons (by decide) (apart_append (by decide) inside (.singleton _))

/-! ## Reading -/

/-- From its tokens the reader makes the value, wherever it stands. -/
def Closes (v : Json) (ts : List Token) : Prop :=
  ∀ fs rest, (ts ++ rest).foldlM ReadState.step (.value fs) =
    rest.foldlM ReadState.step (.done fs v)

/-- The first token of a value does not end an array. -/
theorem foldlM_firstItem (v : Json) (fs : List Frame) (rest : List Token) :
    (tokens v ++ rest).foldlM ReadState.step (.firstItem fs) =
      (tokens v ++ rest).foldlM ReadState.step (.value (.arr [] :: fs)) := by
  cases v <;> simp [tokens, ReadState.step]

theorem closes_items {v : Json} {items : List Json} (h : ∀ w ∈ v :: items, Closes w (tokens w))
    (before : List Json) (fs : List Frame) (rest : List Token) :
    (itemTokens (v :: items) ++ .bracketClose :: rest).foldlM ReadState.step
        (.value (.arr before :: fs)) =
      rest.foldlM ReadState.step (.done fs (.arr (before.reverse ++ v :: items))) := by
  induction items generalizing v before with
  | nil =>
    rw [List.forall_mem_cons] at h
    rw [itemTokens, h.1, List.foldlM_cons]
    simp [ReadState.step]
  | cons w items ih =>
    rw [List.forall_mem_cons] at h
    rw [itemTokens, List.append_assoc, List.cons_append, h.1, List.foldlM_cons]
    have more := ih h.2 (v :: before)
    simp only [List.reverse_cons, List.append_assoc, List.singleton_append] at more
    simpa [ReadState.step] using more

theorem closes_members {m : Option String × Json} {members : Members}
    (h : ∀ n ∈ m :: members, Closes n.2 (tokens n.2)) (before : Members) (fs : List Frame)
    (rest : List Token) :
    (memberTokens (m :: members) ++ .braceClose :: rest).foldlM ReadState.step (.key fs before) =
      rest.foldlM ReadState.step (.done fs (.obj (before.reverse ++ m :: members))) := by
  induction members generalizing m before with
  | nil =>
    obtain ⟨k, v⟩ := m
    rw [List.forall_mem_cons] at h
    have value := h.1 (.obj before k :: fs) (.braceClose :: rest)
    simp only [memberTokens, List.cons_append, List.foldlM_cons, ReadState.step,
      Option.bind_eq_bind, Option.bind_some, value]
    simp
  | cons n members ih =>
    obtain ⟨k, v⟩ := m
    rw [List.forall_mem_cons] at h
    have more := ih h.2 ((k, v) :: before)
    have value := h.1 (.obj before k :: fs)
      (.comma :: (memberTokens (n :: members) ++ .braceClose :: rest))
    simp only [memberTokens, List.cons_append, List.append_assoc, List.foldlM_cons, ReadState.step,
      Option.bind_eq_bind, Option.bind_some, value, more]
    simp

theorem itemTokens_cons (v : Json) (items : List Json) :
    ∃ more, itemTokens (v :: items) = tokens v ++ more := by
  cases items with
  | nil => exact ⟨[], by rw [itemTokens, List.append_nil]⟩
  | cons w items => exact ⟨_, by rw [itemTokens]⟩

theorem memberTokens_cons (m : Option String × Json) (members : Members) :
    ∃ more, memberTokens (m :: members) = .str m.1 :: more := by
  cases members with
  | nil => exact ⟨_, by rw [memberTokens]⟩
  | cons n members => exact ⟨_, by rw [memberTokens, List.cons_append]⟩

theorem closes_tokens (v : Json) : Closes v (tokens v) := by
  induction v using nested_induction with
  | null | bool | num | str =>
    intro fs rest
    simp [tokens, ReadState.step, ReadState.beginValue]
  | arr items ih =>
    intro fs rest
    cases items with
    | nil => simp [tokens, itemTokens, ReadState.step, ReadState.beginValue]
    | cons v items =>
      obtain ⟨more, split⟩ := itemTokens_cons v items
      have first := foldlM_firstItem v fs (more ++ .bracketClose :: rest)
      have all := closes_items ih [] fs rest
      rw [split, List.append_assoc] at all
      simp only [tokens, split, List.cons_append, List.append_assoc, List.nil_append,
        List.foldlM_cons, ReadState.step, ReadState.beginValue, Option.bind_eq_bind,
        Option.bind_some, first, all, List.reverse_nil]
  | obj members ih =>
    intro fs rest
    cases members with
    | nil => simp [tokens, memberTokens, ReadState.step, ReadState.beginValue]
    | cons m members =>
      obtain ⟨more, split⟩ := memberTokens_cons m members
      have all := closes_members ih [] fs rest
      rw [split, List.cons_append, List.foldlM_cons] at all
      simp only [tokens, split, List.cons_append, List.append_assoc, List.nil_append,
        List.foldlM_cons, ReadState.step, ReadState.beginValue, Option.bind_eq_bind,
        Option.bind_some, List.reverse_nil] at all ⊢
      exact all

theorem read?_of_tokens? {v : Json} {text : List Char} (scanned : tokens? text = some (tokens v)) :
    read? text = some v := by
  have closed := closes_tokens v [] []
  rw [List.append_nil] at closed
  rw [read?, scanned, Option.bind_eq_bind, Option.bind_some, ofTokens?, closed]
  rfl

/-- The items in front of the one that is being read, last first. -/
def tokensBefore (items : List Json) : List Token :=
  items.reverse.flatMap fun v => v.tokens ++ [.comma]

def memberTokensBefore (members : Members) : List Token :=
  members.reverse.flatMap fun m => .str m.1 :: .colon :: m.2.tokens ++ [.comma]

/-- The tokens in front of the value that a frame waits for. -/
def Frame.tokens : Frame → List Token
  | .arr items => .bracketOpen :: tokensBefore items
  | .obj members key => .braceOpen :: memberTokensBefore members ++ [.str key, .colon]

def opened (frames : List Frame) : List Token := frames.reverse.flatMap Frame.tokens

/-- The tokens that have been read. -/
def ReadState.consumed : ReadState → List Token
  | .value fs => opened fs
  | .firstItem fs => opened fs ++ [.bracketOpen]
  | .firstKey fs => opened fs ++ [.braceOpen]
  | .key fs ms => opened fs ++ .braceOpen :: memberTokensBefore ms
  | .colon fs ms k => opened fs ++ .braceOpen :: memberTokensBefore ms ++ [.str k]
  | .done fs v => opened fs ++ v.tokens

theorem opened_cons (f : Frame) (fs : List Frame) : opened (f :: fs) = opened fs ++ f.tokens := by
  simp [opened]

theorem intercalate_concat {α : Type} (sep : List α) (xs : List (List α)) (x : List α) :
    sep.intercalate (xs ++ [x]) = xs.flatMap (· ++ sep) ++ x := by
  induction xs with
  | nil => simp
  | cons y xs ih =>
    cases xs with
    | nil => simp
    | cons z zs =>
      simp only [List.cons_append, List.intercalate_cons_cons, List.flatMap_cons,
        List.append_assoc] at ih ⊢
      rw [ih]

theorem tokens_arr_concat (v : Json) (vs : List Json) :
    tokens (.arr (vs.reverse ++ [v])) =
      .bracketOpen :: (tokensBefore vs ++ v.tokens) ++ [.bracketClose] := by
  rw [tokens, itemTokens_eq, List.map_append, List.map_singleton,
    intercalate_concat, List.flatMap_map, tokensBefore]

theorem tokens_obj_concat (k : Option String) (v : Json) (ms : Members) :
    tokens (.obj (ms.reverse ++ [(k, v)])) =
      .braceOpen :: (memberTokensBefore ms ++ .str k :: .colon :: v.tokens) ++ [.braceClose] := by
  rw [tokens, memberTokens_eq, List.map_append, List.map_singleton,
    intercalate_concat, List.flatMap_map, memberTokensBefore]

theorem tokensBefore_cons (v : Json) (vs : List Json) :
    tokensBefore (v :: vs) = tokensBefore vs ++ (v.tokens ++ [.comma]) := by
  simp [tokensBefore]

theorem memberTokensBefore_cons (k : Option String) (v : Json) (ms : Members) :
    memberTokensBefore ((k, v) :: ms) =
      memberTokensBefore ms ++ (.str k :: .colon :: v.tokens ++ [.comma]) := by
  simp [memberTokensBefore]

theorem ReadState.step_firstItem {fs : List Frame} {t : Token} (goes_on : t ≠ .bracketClose) :
    (firstItem fs).step t = beginValue (.arr [] :: fs) t := by
  cases t with
  | bracketClose => exact absurd rfl goes_on
  | _ => rfl

theorem consumed_beginValue {fs : List Frame} {t : Token} {s : ReadState}
    (h : ReadState.beginValue fs t = some s) : s.consumed = opened fs ++ [t] := by
  cases t <;> cases h <;> rfl

/-- Every step adds its token to those that have been read. -/
theorem consumed_step {s s' : ReadState} {t : Token} (h : s.step t = some s') :
    s'.consumed = s.consumed ++ [t] := by
  cases s with
  | value fs => exact consumed_beginValue h
  | firstItem fs =>
    by_cases closes : t = .bracketClose
    · subst closes
      cases h
      simp [ReadState.consumed, tokens, itemTokens]
    · rw [ReadState.step_firstItem closes] at h
      rw [consumed_beginValue h, opened_cons]
      rfl
  | firstKey fs =>
    cases t <;> cases h
    · simp [ReadState.consumed, tokens, memberTokens]
    · simp [ReadState.consumed, memberTokensBefore]
  | key fs ms =>
    cases t <;> cases h
    rfl
  | colon fs ms k =>
    cases t <;> cases h
    simp [ReadState.consumed, opened_cons, Frame.tokens]
  | done fs v =>
    cases fs with
    | nil => cases t <;> cases h
    | cons f fs =>
      cases f with
      | arr vs =>
        cases t <;> cases h
        · simp [ReadState.consumed, opened_cons, Frame.tokens, tokens_arr_concat]
        · simp [ReadState.consumed, opened_cons, Frame.tokens, tokensBefore_cons]
      | obj ms k =>
        cases t <;> cases h
        · simp [ReadState.consumed, opened_cons, Frame.tokens, tokens_obj_concat]
        · simp [ReadState.consumed, opened_cons, Frame.tokens, memberTokensBefore_cons]

theorem consumed_foldlM {ts : List Token} {s s' : ReadState}
    (h : ts.foldlM ReadState.step s = some s') : s'.consumed = s.consumed ++ ts := by
  induction ts generalizing s with
  | nil =>
    cases h
    rw [List.append_nil]
  | cons t ts ih =>
    rw [List.foldlM_cons, Option.bind_eq_bind, Option.bind_eq_some_iff] at h
    obtain ⟨s₁, first, rest⟩ := h
    rw [ih rest, consumed_step first, List.append_assoc, List.singleton_append]

theorem ReadState.eq_done_of_result? {s : ReadState} {v : Json} (h : s.result? = some v) :
    s = .done [] v := by
  unfold result? at h
  split at h
  · cases h
    rfl
  · cases h

theorem tokens_of_ofTokens? {ts : List Token} {v : Json} (h : ofTokens? ts = some v) :
    tokens v = ts := by
  rw [ofTokens?, Option.bind_eq_bind, Option.bind_eq_some_iff] at h
  obtain ⟨state, folded, ended⟩ := h
  cases ReadState.eq_done_of_result? ended
  exact consumed_foldlM folded

/-- The reader accepts a value however it is written, and nothing else. -/
theorem read?_eq_some {v : Json} {s : List Char} :
    read? s = some v ↔ Spread (tokens v) s := by
  constructor
  · intro h
    rw [read?, Option.bind_eq_bind, Option.bind_eq_some_iff] at h
    obtain ⟨ts, scanned, made⟩ := h
    rw [tokens_of_ofTokens? made]
    exact spread_of_tokens? scanned
  · intro h
    exact read?_of_tokens? (tokens?_of_spread h (apart_tokens v))

/-- What is read as a value is read as the only item of an array when it is put in brackets. -/
theorem read?_enclosed {s : List Char} {v : Json} (h : read? s = some v) :
    read? ('[' :: (s ++ [']'])) = some (.arr [v]) := by
  have inside := read?_eq_some.1 h
  have enclosed := (inside.append (.single .bracketClose)).mark .bracketOpen
  apply read?_eq_some.2
  rw [tokens, itemTokens]
  exact enclosed

end IceMaze.Json
