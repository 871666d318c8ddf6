import LexiconCompiler.Proofs.Source.Expressions

/-!
# The values of literals

The text of a literal evaluates to the value of the literal, if it keeps the limits of the
implementation. Its strings are written by code units of sixteen bits, though, and read as
code points: a character above the basic plane comes back as two surrogates.
-/

namespace LexiconCompiler.Source

namespace Literal

/-- The cases of a literal, of which a tuple has all its items. -/
theorem induction {motive : Literal → Prop} (none : motive .none)
    (bool : ∀ value, motive (.bool value)) (int : ∀ value, motive (.int value))
    (str : ∀ value, motive (.str value))
    (tuple : ∀ items, (∀ item ∈ items, motive item) → motive (.tuple items))
    (literal : Literal) : motive literal := by
  match literal with
  | .none => exact none
  | .bool value => exact bool value
  | .int value => exact int value
  | .str value => exact str value
  | .tuple items => exact tuple items fun item _ => induction none bool int str tuple item

mutual

/-- What a literal stands for if its characters give some code points. -/
def valueBy (codes : Char → List Nat) : Literal → Value
  | .none => .none
  | .bool value => .bool value
  | .int value => .int value
  | .str value => .str (value.toList.flatMap codes)
  | .tuple items => .tuple (valuesBy codes items)

/-- What literals stand for, one by one. -/
def valuesBy (codes : Char → List Nat) : List Literal → List Value
  | [] => []
  | item :: rest => valueBy codes item :: valuesBy codes rest

end

@[simp] theorem valuesBy_eq_map (codes : Char → List Nat) (items : List Literal) :
    valuesBy codes items = items.map (valueBy codes) := by
  induction items with
  | nil => rfl
  | cons item rest ih => rw [valuesBy, ih, List.map_cons]

/-- What a literal stands for. -/
def value (literal : Literal) : Value :=
  literal.valueBy fun c => [c.toNat]

/-- A literal keeps the limits of an implementation where so many parentheses are left. -/
inductive Fits (limits : Limits) : (nesting : Nat) → Literal → Prop where
  | none {nesting : Nat} : Fits limits nesting .none
  | bool {nesting : Nat} (value : Bool) : Fits limits nesting (.bool value)
  | int {nesting : Nat} {value : Int}
      (short : (Nat.toDigits 10 value.natAbs).length ≤ limits.digits) :
      Fits limits nesting (.int value)
  | str {nesting : Nat} (value : String) : Fits limits nesting (.str value)
  | tuple {nesting : Nat} {items : List Literal}
      (inside : ∀ item ∈ items, Fits limits nesting item) :
      Fits limits (nesting + 1) (.tuple items)

/-- All characters of a literal are in the basic plane. -/
inductive Basic : Literal → Prop where
  | none : Basic .none
  | bool (value : Bool) : Basic (.bool value)
  | int (value : Int) : Basic (.int value)
  | str {value : String} (basic : ∀ c ∈ value.toList, c.toNat < 0x10000) : Basic (.str value)
  | tuple {items : List Literal} (inside : ∀ item ∈ items, Basic item) : Basic (.tuple items)

variable {limits : Limits} {nesting : Nat} {items : List Literal}

theorem fits_int_iff {value : Int} : Fits limits nesting (.int value) ↔
    (Nat.toDigits 10 value.natAbs).length ≤ limits.digits := by
  constructor
  · rintro ⟨⟩
    assumption
  · exact .int

theorem fits_tuple_iff : Fits limits (nesting + 1) (.tuple items) ↔
    ∀ item ∈ items, Fits limits nesting item := by
  constructor
  · rintro ⟨⟩
    assumption
  · exact .tuple

theorem basic_str_iff {value : String} :
    Basic (.str value) ↔ ∀ c ∈ value.toList, c.toNat < 0x10000 := by
  constructor
  · rintro ⟨⟩
    assumption
  · exact .str

theorem basic_tuple_iff : Basic (.tuple items) ↔ ∀ item ∈ items, Basic item := by
  constructor
  · rintro ⟨⟩
    assumption
  · exact .tuple

/-! ## Code points and code units -/

/-- Code units are code points iff no character is above the basic plane. -/
theorem flatMap_codeUnits_eq_iff (text : List Char) :
    (text.flatMap Text.codeUnits = text.flatMap fun c => [c.toNat]) ↔
      ∀ c ∈ text, c.toNat < 0x10000 := by
  induction text with
  | nil => simp
  | cons c text ih =>
      rw [List.flatMap_cons, List.flatMap_cons, List.forall_mem_cons, ← ih]
      by_cases basic : c.toNat < 0x10000
      · rw [Text.codeUnits, if_pos basic, List.append_cancel_left_eq]
        exact (and_iff_right basic).symm
      · refine iff_of_false ?_ fun both => basic both.1
        intro equal
        have top := Text.toNat_lt c
        rw [Text.codeUnits, if_neg basic] at equal
        have first := (List.cons.inj equal).1
        omega

theorem valueBy_codeUnits_eq_iff (literal : Literal) :
    literal.valueBy Text.codeUnits = literal.value ↔ literal.Basic := by
  induction literal using induction with
  | none => exact iff_of_true rfl .none
  | bool value => exact iff_of_true rfl (.bool value)
  | int value => exact iff_of_true rfl (.int value)
  | str value =>
      rw [basic_str_iff, ← flatMap_codeUnits_eq_iff]
      exact Value.str.injEq _ _ ▸ Iff.rfl
  | tuple items ih =>
      rw [basic_tuple_iff, value, valueBy, valueBy, Value.tuple.injEq, valuesBy_eq_map,
        valuesBy_eq_map, List.map_inj_left]
      exact forall₂_congr ih

end Literal

/-! ## Evaluation -/

namespace Expression

variable {limits : Limits} {literal : Literal} {items : List Literal} {rest : List Char}

/-- A result is what was to be found if some condition holds, and nothing otherwise. -/
def Settles {α : Type} (condition : Prop) (result : Option α) (found : α) : Prop :=
  condition ∧ result = some found ∨ ¬ condition ∧ result = none

/-- A result that another one decides. -/
theorem Settles.goOn {α β : Type} {condition : Prop} {early : Option α} {first : α}
    {result : Option β} {found : β} (settles : Settles condition early first)
    (goes : early = some first → result = some found) (stops : early = none → result = none) :
    Settles condition result found := by
  rcases settles with ⟨holds, read⟩ | ⟨fails, refused⟩
  · exact .inl ⟨holds, goes read⟩
  · exact .inr ⟨fails, stops refused⟩

/-- A result that two others decide, one after the other. -/
theorem Settles.andThen {α β γ : Type} {condition further : Prop} {early : Option α} {first : α}
    {late : Option β} {second : β} {result : Option γ} (join : β → γ)
    (settles : Settles condition early first) (later : Settles further late second)
    (goes : early = some first → result = late.map join) (stops : early = none → result = none) :
    Settles (condition ∧ further) result (join second) := by
  rcases settles with ⟨holds, read⟩ | ⟨fails, refused⟩
  · rw [goes read]
    rcases later with ⟨also, found⟩ | ⟨fails, refused⟩
    · exact .inl ⟨⟨holds, also⟩, by rw [found, Option.map_some]⟩
    · exact .inr ⟨fun both => fails both.2, by rw [refused, Option.map_none]⟩
  · exact .inr ⟨fun both => fails both.1, stops refused⟩

/-- Where a value may end, the text of a literal is read as its value if the literal keeps
the limits, and refused otherwise. -/
def Evaluates (limits : Limits) (literal : Literal) : Prop :=
  ∀ nesting rest, Follows rest → Settles (literal.Fits limits nesting)
    (valueAt? limits nesting (literal.render ++ rest)) (literal.valueBy Text.codeUnits, rest)

theorem follows_cons {c : Char} (closes : c = ',' ∨ c = ')') (rest : List Char) :
    Follows (c :: rest) := by
  intro other head
  rw [← Option.some.inj head]
  exact closes

theorem exists_tupleOf (items : List (List Char)) :
    ∃ after, Literal.tupleOf items = '(' :: after := by
  rcases items with _ | ⟨item, _ | ⟨next, others⟩⟩ <;> exact ⟨_, rfl⟩

/-- A literal does not begin like the end of a tuple. -/
theorem exists_head_render (literal : Literal) :
    ∃ c after, literal.render = c :: after ∧ Json.isLayout c = false ∧ c ≠ ')' := by
  cases literal with
  | none => exact ⟨'N', "one".toList, rfl, by decide, by decide⟩
  | bool value =>
      cases value with
      | true => exact ⟨'T', "rue".toList, rfl, by decide, by decide⟩
      | false => exact ⟨'F', "alse".toList, rfl, by decide, by decide⟩
  | int value =>
      obtain ⟨c, after, shown, sort⟩ := exists_head_writeInt value
      refine ⟨c, after, shown, ?_, ?_⟩
      · rw [← Bool.not_eq_true]
        intro layout
        simp only [Json.isLayout, Bool.or_eq_true, beq_iff_eq] at layout
        rcases layout with ((rfl | rfl) | rfl) | rfl <;> revert sort <;> decide
      · rintro rfl
        revert sort
        decide
  | str value => exact ⟨'"', _, rfl, by decide, by decide⟩
  | tuple items =>
      obtain ⟨after, shown⟩ := exists_tupleOf (Literal.renderAll items)
      exact ⟨'(', after, shown, by decide, by decide⟩

theorem skipLayout_render (literal : Literal) (rest : List Char) :
    ∃ c after, Json.skipLayout (literal.render ++ rest) = c :: after ∧ c ≠ ')' ∧
      literal.render ++ rest = c :: after := by
  obtain ⟨c, after, shown, solid, opened⟩ := exists_head_render literal
  refine ⟨c, after ++ rest, ?_, opened, by rw [shown, List.cons_append]⟩
  rw [shown, List.cons_append, skipLayout_of_head solid]

theorem Evaluates.itemAt? (evaluates : Evaluates limits literal) (nesting : Nat)
    (follows : Follows rest) :
    Settles (literal.Fits limits nesting)
      (itemAt? (valueAt? limits nesting) (literal.render ++ rest))
      (literal.valueBy Text.codeUnits, Json.skipLayout rest) := by
  obtain ⟨c, after, skipped, _, shown⟩ := skipLayout_render literal rest
  rw [Expression.itemAt?, skipped, ← shown]
  refine (evaluates nesting rest follows).goOn ?_ ?_
  · intro found
    rw [found, Option.map_some]
  · intro refused
    rw [refused, Option.map_none]

/-! ## Tuples -/

/-- The items of a tuple behind the first one are read one after another. -/
theorem settles_itemsAt? (any : items ≠ []) (evaluates : ∀ item ∈ items, Evaluates limits item)
    (nesting : Nat) {budget : Nat} (enough : items.length ≤ budget) (rest : List Char) :
    Settles (∀ item ∈ items, item.Fits limits nesting)
      (itemsAt? (valueAt? limits nesting) budget
        (' ' :: ([',', ' '].intercalate (items.map Literal.render) ++ ')' :: rest)))
      (items.map (Literal.valueBy Text.codeUnits), rest) := by
  induction items generalizing budget with
  | nil => exact absurd rfl any
  | cons item items ih =>
      obtain ⟨budget, rfl⟩ : ∃ less, budget = less + 1 :=
        ⟨budget - 1, by rw [List.length_cons] at enough; omega⟩
      rw [List.forall_mem_cons] at evaluates
      rw [List.forall_mem_cons]
      cases items with
      | nil =>
          obtain ⟨c, after, skipped, opened, _⟩ := skipLayout_render item (')' :: rest)
          rw [List.map_singleton, List.intercalate_singleton, itemsAt?_blank skipped opened,
            and_iff_left (by simp)]
          refine (evaluates.1.itemAt? nesting (follows_cons (.inr rfl) rest)).goOn ?_ ?_
          · intro found
            rw [found]
            rfl
          · intro refused
            rw [refused]
      | cons next items =>
          have others := ih (List.cons_ne_nil _ _) evaluates.2 (Nat.le_of_succ_le_succ enough)
          generalize later : ' ' :: ([',', ' '].intercalate ((next :: items).map Literal.render) ++
            ')' :: rest) = tail at others
          have shown : [',', ' '].intercalate ((item :: next :: items).map Literal.render) ++
              ')' :: rest = item.render ++ ',' :: tail := by
            simp [← later, List.intercalate_cons_cons]
          obtain ⟨c, after, skipped, opened, _⟩ := skipLayout_render item (',' :: tail)
          rw [shown, itemsAt?_blank skipped opened]
          refine .andThen (fun found => (item.valueBy Text.codeUnits :: found.1, found.2))
            (evaluates.1.itemAt? nesting (follows_cons (.inl rfl) tail)) others ?_ ?_
          · intro found
            rw [found]
            rfl
          · intro refused
            rw [refused]

/-- Every item has a character of its own. -/
theorem length_le_intercalate (items : List Literal) (rest : List Char) :
    items.length ≤ ([',', ' '].intercalate (items.map Literal.render) ++ rest).length := by
  induction items with
  | nil => exact Nat.zero_le _
  | cons item items ih =>
      obtain ⟨c, after, shown, _⟩ := exists_head_render item
      cases items with
      | nil => simp [shown]
      | cons next items =>
          rw [List.map_cons, List.map_cons, List.intercalate_cons_cons, shown]
          simp only [List.map_cons, List.length_cons, List.length_append] at ih ⊢
          omega

/-- A tuple is read as its first item and the items behind the comma. -/
theorem settles_parenthesizedAt? {item : Literal} (first : Evaluates limits item)
    {nesting : Nat} {tail : List Char}
    (later : Settles (∀ other ∈ items, other.Fits limits nesting)
      (itemsAt? (valueAt? limits nesting) (tail.length + 1) tail)
      (items.map (Literal.valueBy Text.codeUnits), rest)) :
    Settles (∀ other ∈ item :: items, other.Fits limits nesting)
      (parenthesizedAt? (valueAt? limits nesting) (item.render ++ ',' :: tail))
      (.tuple ((item :: items).map (Literal.valueBy Text.codeUnits)), rest) := by
  obtain ⟨c, after, skipped, opened, _⟩ := skipLayout_render item (',' :: tail)
  rw [List.forall_mem_cons, parenthesizedAt?_eq skipped opened]
  refine .andThen (fun found => (Value.tuple (item.valueBy Text.codeUnits :: found.1), found.2))
    (first.itemAt? nesting (follows_cons (.inl rfl) tail)) later ?_ ?_
  · intro found
    rw [found]
    rfl
  · intro refused
    rw [refused]

theorem evaluates_tuple (evaluates : ∀ item ∈ items, Evaluates limits item) :
    Evaluates limits (.tuple items) := by
  intro nesting rest follows
  cases nesting with
  | zero =>
      obtain ⟨after, opened⟩ := exists_tupleOf (Literal.renderAll items)
      refine .inr ⟨by rintro ⟨⟩, ?_⟩
      rw [Literal.render, opened, List.cons_append, valueAt?_zero]
  | succ nesting =>
      rw [Literal.fits_tuple_iff, Literal.valueBy, Literal.valuesBy_eq_map, Literal.render,
        Literal.renderAll_eq_map]
      rcases items with _ | ⟨item, _ | ⟨next, others⟩⟩
      · exact .inl ⟨by simp, rfl⟩
      · have shown : Literal.tupleOf ([item].map Literal.render) ++ rest =
            '(' :: (item.render ++ ',' :: ')' :: rest) := by
          simp [Literal.tupleOf]
        rw [shown]
        exact settles_parenthesizedAt? (evaluates item List.mem_cons_self)
          (.inl ⟨by simp, rfl⟩)
      · have shown : Literal.tupleOf ((item :: next :: others).map Literal.render) ++ rest =
            '(' :: (item.render ++ ',' :: ' ' ::
              ([',', ' '].intercalate ((next :: others).map Literal.render) ++ ')' :: rest)) := by
          simp [Literal.tupleOf, List.intercalate_cons_cons]
        -- the budget is the length of the text, in which every item has a part
        have enough := length_le_intercalate (next :: others) (')' :: rest)
        rw [List.forall_mem_cons] at evaluates
        rw [shown]
        exact settles_parenthesizedAt? evaluates.1 (settles_itemsAt? (List.cons_ne_nil _ _)
          evaluates.2 nesting (by rw [List.length_cons (a := ' ')]; omega) rest)

/-! ## Literals -/

theorem evaluates_of_scalarAt? (plain : ∀ rest, (literal.render ++ rest).head? ≠ some '(')
    (reads : ∀ nesting rest, Follows rest → Settles (literal.Fits limits nesting)
      (scalarAt? limits (literal.render ++ rest)) (literal.valueBy Text.codeUnits, rest)) :
    Evaluates limits literal := by
  intro nesting rest follows
  rw [valueAt?_of_head?_ne (plain rest)]
  exact reads nesting rest follows

theorem evaluates_int (limits : Limits) (value : Int) : Evaluates limits (.int value) := by
  apply evaluates_of_scalarAt?
  · intro rest
    obtain ⟨c, after, shown, sort⟩ := exists_head_writeInt value
    rw [Literal.render, shown]
    intro opened
    cases Option.some.inj opened
    revert sort
    decide
  · intro nesting rest follows
    rw [Literal.fits_int_iff, Literal.render, scalarAt?_writeInt limits follows]
    by_cases short : (Nat.toDigits 10 value.natAbs).length ≤ limits.digits
    · exact .inl ⟨short, if_pos short⟩
    · exact .inr ⟨short, if_neg short⟩

theorem evaluates (limits : Limits) (literal : Literal) : Evaluates limits literal := by
  induction literal using Literal.induction with
  | none =>
      apply evaluates_of_scalarAt? fun _ => by simp [Literal.render]
      exact fun _ _ _ => .inl ⟨.none, rfl⟩
  | bool value =>
      cases value with
      | true =>
          apply evaluates_of_scalarAt? fun _ => by simp [Literal.render]
          exact fun _ _ _ => .inl ⟨.bool true, rfl⟩
      | false =>
          apply evaluates_of_scalarAt? fun _ => by simp [Literal.render]
          exact fun _ _ _ => .inl ⟨.bool false, rfl⟩
  | int value => exact evaluates_int limits value
  | str value =>
      apply evaluates_of_scalarAt? fun _ => by simp [Literal.render, Json.writeString]
      exact fun _ _ follows => .inl ⟨.str value, scalarAt?_writeString limits follows _⟩
  | tuple items ih => exact evaluates_tuple ih

end Expression

open Expression

theorem settles_evaluate (limits : Limits) (literal : Literal) :
    Settles (literal.Fits limits limits.nesting) (evaluate limits literal.render)
      (literal.valueBy Text.codeUnits) := by
  have read := evaluates limits literal limits.nesting [] (by simp [Follows])
  rw [List.append_nil] at read
  rw [evaluate]
  refine read.goOn ?_ ?_
  · intro found
    rw [found]
  · intro refused
    rw [refused]

/-- The text of a literal evaluates to the value of the literal iff the literal keeps the
limits and all its characters are in the basic plane. -/
theorem evaluate_render_iff (limits : Limits) (literal : Literal) :
    evaluate limits literal.render = some literal.value ↔
      literal.Fits limits limits.nesting ∧ literal.Basic := by
  rw [← literal.valueBy_codeUnits_eq_iff]
  rcases settles_evaluate limits literal with ⟨fits, found⟩ | ⟨unfit, refused⟩
  · rw [found, Option.some.injEq]
    exact (and_iff_right fits).symm
  · rw [refused]
    exact iff_of_false (by simp) fun both => unfit both.1

end LexiconCompiler.Source
