import LexiconCompiler.Proofs.Json.Extent

/-!
# Containers as series of entries

The items of an array and the members of an object are read by the same loop: an entry, and
then the closing bracket, or a comma and the others. This module states the loop once, for
both kinds of container, with what it takes of a text and what its budget is for. Values of
any depth are taken whole then.
-/

namespace LexiconCompiler.Json

open Traversal

variable {α : Type} {text rest between next used blanks : List Char} {value : α}
  {values : List α} {container : Container} {budget : Nat}
  {entry : List Char → Except Refusal (Parsed α)} {build : List α → Json}

/-- The bracket that closes a container. -/
def Container.closing : Container → Char
  | array => ']'
  | object => '}'

/-- What is missed where an entry of a container is owed and the text ends. -/
def Container.owed : Container → Complaint
  | array => .expectedValue
  | object => .expectedKey

/-- Read one or more entries up to the closing bracket of their container. -/
def readSeries (container : Container) (entry : List Char → Except Refusal (Parsed α)) :
    Nat → List Char → Except Refusal (Parsed (List α))
  | 0, text => refuse container.owed text
  | budget + 1, text => do
      let (value, rest) ← entry text
      match skipLayout rest with
      | [] => refuse .expectedComma []
      | c :: next =>
          if c = container.closing then .ok ([value], next)
          else if c = ',' then do
            let (values, rest) ← readSeries container entry budget (skipLayout next)
            .ok (value :: values, rest)
          else refuse .expectedComma (c :: next)

/-- Read a container after its opening bracket. -/
def readContainer (container : Container) (entry : List Char → Except Refusal (Parsed α))
    (build : List α → Json) (text : List Char) : Except Refusal (Parsed Json) :=
  match skipLayout text with
  | [] => refuse container.owed []
  | c :: rest =>
      if c = container.closing then .ok (build [], rest)
      else do
        let (values, rest) ← readSeries container entry (c :: rest).length (c :: rest)
        .ok (build values, rest)

/-- Read a member of an object: a key and a value. -/
def readMember (read : List Char → Except Refusal (Parsed Json)) (text : List Char) :
    Except Refusal (Parsed (String × Json)) := do
  let (key, rest) ← readKey text
  let (value, rest) ← read rest
  .ok ((key, value), rest)

theorem readItems_eq (read : List Char → Except Refusal (Parsed Json)) (budget : Nat)
    (text : List Char) : readItems read budget text = readSeries .array read budget text := by
  induction budget generalizing text with
  | zero => rfl
  | succ budget ih =>
      rw [readItems, readSeries]
      apply bind_congr
      intro ⟨item, left⟩
      dsimp only
      split
      · rename_i after closes
        rw [closes]
        rfl
      · rename_i after goes
        rw [goes, ih]
        rfl
      · rename_i closes goes
        cases spelled : skipLayout left with
        | nil => rfl
        | cons c next =>
            have notClosed : c ≠ ']' := fun same => closes next (by rw [spelled, same])
            have notGoing : c ≠ ',' := fun same => goes next (by rw [spelled, same])
            simp only [Container.closing, notClosed, notGoing, if_false]

theorem readMembers_eq (read : List Char → Except Refusal (Parsed Json)) (budget : Nat)
    (text : List Char) :
    readMembers read budget text = readSeries .object (readMember read) budget text := by
  induction budget generalizing text with
  | zero => rfl
  | succ budget ih =>
      rw [readMembers, readSeries, readMember]
      simp only [bind_assoc]
      apply bind_congr
      intro ⟨key, after⟩
      apply bind_congr
      intro ⟨item, left⟩
      dsimp only [bind, Except.bind]
      split
      · rename_i after closes
        rw [closes]
        rfl
      · rename_i after goes
        rw [goes, ih]
        rfl
      · rename_i closes goes
        cases spelled : skipLayout left with
        | nil => rfl
        | cons c next =>
            have notClosed : c ≠ '\x7d' := fun same => closes next (by rw [spelled, same])
            have notGoing : c ≠ ',' := fun same => goes next (by rw [spelled, same])
            simp only [Container.closing, notClosed, notGoing, if_false]

theorem readArray_eq (read : List Char → Except Refusal (Parsed Json)) :
    readArray read = readContainer .array read .arr := by
  funext text
  rw [readArray, readContainer]
  split
  · rename_i after closes
    rw [closes]
    rfl
  · rename_i closes
    simp only [readItems_eq]
    cases spelled : skipLayout text with
    | nil => rfl
    | cons c next =>
        have notClosed : c ≠ ']' := fun same => closes next (by rw [spelled, same])
        simp only [Container.closing, notClosed, if_false]

theorem readObject_eq (read : List Char → Except Refusal (Parsed Json)) :
    readObject read = readContainer .object (readMember read)
      fun members => .obj (Table.ofList members).entries := by
  funext text
  rw [readObject, readContainer]
  split
  · rename_i after closes
    rw [closes]
    rfl
  · rename_i closes
    simp only [readMembers_eq]
    cases spelled : skipLayout text with
    | nil => rfl
    | cons c next =>
        have notClosed : c ≠ '\x7d' := fun same => closes next (by rw [spelled, same])
        simp only [Container.closing, notClosed, if_false]

/-! ## One entry -/

theorem Container.isDelimiter_closing (container : Container) :
    isDelimiter container.closing = true ∧ isLayout container.closing = false := by
  cases container <;> decide

theorem Container.isSpecial_closing (container : Container) :
    isSpecial container.closing = true := by
  cases container <;> decide

theorem readSeries_failed {refusal : Refusal} (fails : entry text = .error refusal) :
    readSeries container entry (budget + 1) text = .error refusal := by
  rw [readSeries, fails]
  rfl

/-- The last entry comes before the closing bracket. -/
theorem readSeries_last (here : entry text = .ok (value, between))
    (closes : skipLayout between = container.closing :: rest) :
    readSeries container entry (budget + 1) text = .ok ([value], rest) := by
  simp only [readSeries, here, bind, Except.bind, closes, if_true]

/-- After a comma the others follow. -/
theorem readSeries_more (here : entry text = .ok (value, between))
    (goes : skipLayout between = ',' :: next) :
    readSeries container entry (budget + 1) text =
      (fun found => (value :: found.1, found.2)) <$>
        readSeries container entry budget (skipLayout next) := by
  have notClosed : ',' ≠ container.closing := by cases container <;> decide
  simp only [readSeries, here, bind, Except.bind, goes, notClosed, if_false, if_true]
  cases readSeries container entry budget (skipLayout next) <;> rfl

theorem readSeries_lost (here : entry text = .ok (value, between))
    (notClosed : ∀ rest, skipLayout between ≠ container.closing :: rest)
    (notGoing : ∀ next, skipLayout between ≠ ',' :: next) :
    readSeries container entry (budget + 1) text =
      refuse .expectedComma (skipLayout between) := by
  rw [readSeries, here]
  cases spelled : skipLayout between with
  | nil => simp only [bind, Except.bind, spelled]
  | cons c next =>
      have closes : c ≠ container.closing := fun same => notClosed next (by rw [spelled, same])
      have goes : c ≠ ',' := fun same => notGoing next (by rw [spelled, same])
      simp only [bind, Except.bind, spelled, closes, goes, if_false]

/-- After an entry its container closes, goes on, or is broken off. -/
theorem Container.cases_after (container : Container) (after : List Char) :
    (∃ rest, after = container.closing :: rest) ∨ (∃ next, after = ',' :: next) ∨
      ((∀ rest, after ≠ container.closing :: rest) ∧ ∀ next, after ≠ ',' :: next) := by
  by_cases closes : ∃ rest, after = container.closing :: rest
  · exact .inl closes
  · by_cases goes : ∃ next, after = ',' :: next
    · exact .inr (.inl goes)
    · push Not at closes goes
      exact .inr (.inr ⟨closes, goes⟩)

/-- What goes on after a comma, with layout before it, ends the value before. -/
theorem ended_of_goes (goes : skipLayout between = ',' :: next) : Ended between := by
  obtain ⟨blanks, layout, split⟩ := exists_layout_append between
  rw [split, goes]
  exact ended_append layout (ended_cons.mpr (by decide))

/-- A series is refused for an entry, for the others after it, or for a missing comma. -/
theorem readSeries_error_cases (frames : Frames entry) {refusal : Refusal}
    (fails : readSeries container entry (budget + 1) text = .error refusal) :
    entry text = .error refusal ∨
    (∃ used value between next, text = used ++ between ∧ Takes entry used value ∧
      skipLayout between = ',' :: next ∧
      readSeries container entry budget (skipLayout next) = .error refusal) ∨
    ∃ rest, refusal = .misplaced .expectedComma rest := by
  cases here : entry text with
  | error other =>
      rw [readSeries_failed here] at fails
      cases fails
      exact .inl rfl
  | ok found =>
      obtain ⟨value, between⟩ := found
      obtain ⟨used, _, split, takes⟩ := frames text value between here
      rcases container.cases_after (skipLayout between) with
        ⟨after, closes⟩ | ⟨next, goes⟩ | ⟨notClosed, notGoing⟩
      · rw [readSeries_last here closes] at fails
        cases fails
      · rw [readSeries_more here goes] at fails
        exact .inr (.inl ⟨used, value, between, next, split, takes, goes,
          map_eq_error_iff.mp fails⟩)
      · rw [readSeries_lost here notClosed notGoing] at fails
        cases fails
        exact .inr (.inr ⟨_, rfl⟩)

/-! ## Taking a series -/

/-- A text with its closing bracket is a series of entries, whatever comes after it. -/
def Fills (container : Container) (entry : List Char → Except Refusal (Parsed α))
    (used : List Char) (values : List α) : Prop :=
  ∀ rest budget, used.length ≤ budget →
    readSeries container entry budget (used ++ rest) = .ok (values, rest)

theorem Fills.ne_nil (fills : Fills container entry used values) : used ≠ [] := by
  rintro rfl
  cases fills [] 0 (Nat.le_refl 0)

theorem Fills.last (takes : Takes entry used value)
    (layout : ∀ c ∈ blanks, isLayout c = true) :
    Fills container entry (used ++ (blanks ++ [container.closing])) [value] := by
  intro rest budget enough
  cases budget with
  | zero => simp at enough
  | succ budget =>
      obtain ⟨delimits, unlaid⟩ := container.isDelimiter_closing
      rw [List.append_assoc, List.append_assoc, List.singleton_append]
      refine readSeries_last (takes _ (ended_append layout (ended_cons.mpr delimits))) ?_
      exact skipLayout_append layout (unlaid_cons.mpr unlaid)

theorem Fills.more {later spaces : List Char} (takes : Takes entry used value)
    (layout : ∀ c ∈ blanks, isLayout c = true) (spaced : ∀ c ∈ spaces, isLayout c = true)
    (unlaid : Unlaid later) (fills : Fills container entry later values) :
    Fills container entry (used ++ (blanks ++ ',' :: (spaces ++ later))) (value :: values) := by
  intro rest budget enough
  cases budget with
  | zero => simp at enough
  | succ budget =>
      simp only [List.length_append, List.length_cons] at enough
      have follows : Unlaid (later ++ rest) := unlaid.append fills.ne_nil
      have goes : skipLayout (blanks ++ ',' :: (spaces ++ later) ++ rest) =
          ',' :: (spaces ++ later ++ rest) := by
        rw [List.append_assoc]
        exact skipLayout_append layout (unlaid_cons.mpr (by decide))
      have ended : Ended (blanks ++ ',' :: (spaces ++ later) ++ rest) := by
        rw [List.append_assoc]
        exact ended_append layout (ended_cons.mpr (by decide))
      rw [List.append_assoc, readSeries_more (takes _ ended) goes, List.append_assoc,
        skipLayout_append spaced follows, fills rest budget (by omega)]
      rfl

/-- What is read as a series fills the text that is gone. -/
theorem exists_fills (frames : Frames entry)
    (parsed : readSeries container entry budget text = .ok (values, rest)) :
    ∃ used, text = used ++ rest ∧ Fills container entry used values := by
  induction budget generalizing text values with
  | zero => cases parsed
  | succ budget ih =>
      cases here : entry text with
      | error refusal =>
          rw [readSeries_failed here] at parsed
          cases parsed
      | ok found =>
          obtain ⟨value, between⟩ := found
          obtain ⟨used, any, rfl, takes⟩ := frames text value between here
          obtain ⟨blanks, layout, split⟩ := exists_layout_append between
          rcases container.cases_after (skipLayout between) with
            ⟨after, closes⟩ | ⟨next, goes⟩ | ⟨notClosed, notGoing⟩
          · rw [readSeries_last here closes] at parsed
            cases parsed
            refine ⟨_, ?_, .last takes layout⟩
            rw [split, closes]
            simp
          · rw [readSeries_more here goes] at parsed
            obtain ⟨⟨others, left⟩, series, equal⟩ := map_eq_ok_iff.mp parsed
            cases equal
            obtain ⟨later, spelled, fills⟩ := ih series
            obtain ⟨spaces, spaced, apart⟩ := exists_layout_append next
            have unlaid : Unlaid later := by
              have whole := unlaid_skipLayout next
              rw [spelled] at whole
              exact whole.of_append
            refine ⟨_, ?_, .more takes layout spaced unlaid fills⟩
            rw [split, goes, apart, spelled]
            simp
          · rw [readSeries_lost here notClosed notGoing] at parsed
            cases parsed

/-! ## Taking a container -/

/-- A container without entries. -/
theorem readContainer_closed (closes : skipLayout text = container.closing :: rest) :
    readContainer container entry build text = .ok (build [], rest) := by
  simp only [readContainer, closes, if_true]

/-- A container that does not close at once holds a series. -/
theorem readContainer_series (opens : (skipLayout text).head? ≠ some container.closing) :
    readContainer container entry build text =
      (fun found => (build found.1, found.2)) <$>
        readSeries container entry (skipLayout text).length (skipLayout text) := by
  rw [readContainer]
  cases spelled : skipLayout text with
  | nil => rfl
  | cons c after =>
      have notClosed : c ≠ container.closing := fun same => opens (by rw [spelled, same]; rfl)
      simp only [notClosed, if_false]
      cases readSeries container entry (c :: after).length (c :: after) <;> rfl

theorem takes_readContainer_nil (layout : ∀ c ∈ blanks, isLayout c = true) :
    Takes (readContainer container entry build) (blanks ++ [container.closing]) (build []) := by
  intro rest _
  apply readContainer_closed
  rw [List.append_assoc]
  exact skipLayout_append layout (unlaid_cons.mpr container.isDelimiter_closing.2)

theorem takes_readContainer (layout : ∀ c ∈ blanks, isLayout c = true)
    (fills : Fills container entry used values) (unlaid : Unlaid used)
    (opens : used.head? ≠ some container.closing) :
    Takes (readContainer container entry build) (blanks ++ used) (build values) := by
  intro rest _
  have series := fills rest (used ++ rest).length (by simp)
  have starts : skipLayout (blanks ++ used ++ rest) = used ++ rest := by
    rw [List.append_assoc]
    exact skipLayout_append layout (unlaid.append fills.ne_nil)
  have head : (used ++ rest).head? ≠ some container.closing := by
    rw [List.head?_append_of_ne_nil _ fills.ne_nil]
    exact opens
  rw [readContainer_series (by rw [starts]; exact head), starts, series]
  rfl

theorem frames_readContainer (frames : Frames entry) :
    Frames (readContainer container entry build) := by
  intro text value rest parsed
  obtain ⟨blanks, layout, split⟩ := exists_layout_append text
  have unlaid := unlaid_skipLayout text
  by_cases closes : (skipLayout text).head? = some container.closing
  · obtain ⟨after, closes⟩ := List.head?_eq_some_iff.mp closes
    rw [readContainer_closed closes] at parsed
    cases parsed
    exact ⟨_, by simp, by rw [split, closes]; simp, takes_readContainer_nil layout⟩
  · rw [readContainer_series closes] at parsed
    obtain ⟨⟨values, left⟩, series, equal⟩ := map_eq_ok_iff.mp parsed
    cases equal
    obtain ⟨used, whole, fills⟩ := exists_fills frames series
    rw [whole] at split unlaid closes
    rw [List.head?_append_of_ne_nil _ fills.ne_nil] at closes
    refine ⟨_, ?_, ?_, takes_readContainer layout fills unlaid.of_append closes⟩
    · simp [fills.ne_nil]
    · rw [split, List.append_assoc]

/-! ## Members -/

section Members

variable {key : String} {read : List Char → Except Refusal (Parsed Json)}

/-- A key is taken with its colon and the layout around it. -/
def TakesKey (used : List Char) (key : String) : Prop :=
  ∀ rest, Unlaid rest → readKey (used ++ rest) = .ok (key, rest)

theorem takesKey {spaces : List Char}
    (string : ∀ opening rest, readString opening (used ++ rest) = .ok (key, rest))
    (layout : ∀ c ∈ blanks, isLayout c = true) (spaced : ∀ c ∈ spaces, isLayout c = true) :
    TakesKey ('"' :: (used ++ (blanks ++ ':' :: spaces))) key := by
  intro rest unlaid
  have colon : skipLayout (blanks ++ ':' :: (spaces ++ rest)) = ':' :: (spaces ++ rest) :=
    skipLayout_append layout (unlaid_cons.mpr (by decide))
  simp only [List.cons_append, List.append_assoc, readKey, string, bind, Except.bind, colon,
    skipLayout_append spaced unlaid]

/-- What is read as a key does not depend on the rest, which does not start with layout. -/
theorem exists_takesKey (parsed : readKey text = .ok (key, rest)) :
    Unlaid rest ∧ ∃ used, text = used ++ rest ∧ TakesKey used key := by
  unfold readKey at parsed
  split at parsed
  · rename_i after
    obtain ⟨⟨found, left⟩, string, ended⟩ := bind_eq_ok_iff.mp parsed
    obtain ⟨used, rfl, again⟩ := readString_frame string
    obtain ⟨blanks, layout, split⟩ := exists_layout_append left
    dsimp only at ended
    split at ended
    · rename_i next colon
      cases ended
      obtain ⟨spaces, spaced, apart⟩ := exists_layout_append next
      refine ⟨unlaid_skipLayout next, _, ?_, takesKey again layout spaced⟩
      conv_lhs => rw [split, colon, apart]
      simp
    · cases ended
  · cases parsed

theorem takes_readMember {usedKey : List Char} {value : Json} (first : TakesKey usedKey key)
    (second : Takes read used value) (unlaid : Unlaid used) (any : used ≠ []) :
    Takes (readMember read) (usedKey ++ used) (key, value) := by
  intro rest ended
  rw [readMember, List.append_assoc, first _ (unlaid.append any)]
  simp only [bind, Except.bind, second rest ended]

theorem frames_readMember (frames : Frames read) : Frames (readMember read) := by
  intro text member rest parsed
  obtain ⟨⟨key, between⟩, keyed, parsed⟩ := bind_eq_ok_iff.mp parsed
  obtain ⟨⟨value, left⟩, valued, equal⟩ := bind_eq_ok_iff.mp parsed
  cases equal
  obtain ⟨unlaid, usedKey, rfl, first⟩ := exists_takesKey keyed
  obtain ⟨used, any, rfl, second⟩ := frames _ _ _ valued
  refine ⟨_, ?_, ?_, takes_readMember first second unlaid.of_append any⟩
  · simp [any]
  · rw [List.append_assoc]

end Members

/-! ## Values -/

section Values

variable {nested : Option (List Char → Except Refusal (Parsed Json))}

/-- A text opens a string or a container. -/
def Opens (text : List Char) : Prop :=
  ∃ c after, text = c :: after ∧ (c = '"' ∨ c = '[' ∨ c = '\x7b')

theorem Opens.append (opens : Opens used) : Opens (used ++ rest) := by
  obtain ⟨c, after, rfl, opened⟩ := opens
  exact ⟨c, after ++ rest, rfl, opened⟩

theorem StartsPlain.not_opens (starts : StartsPlain text) : ¬ Opens text := by
  obtain ⟨c, after, rfl, plain⟩ := starts
  rintro ⟨d, others, ⟨⟩, opened⟩
  rcases opened with rfl | rfl | rfl <;> cases plain

/-- A text that opens nothing is a word or a number. -/
theorem readWith_of_not_opens (plain : ¬ Opens text) : readWith nested text = readScalar text := by
  unfold readWith
  split
  · exact absurd ⟨_, _, rfl, .inl rfl⟩ plain
  · exact absurd ⟨_, _, rfl, .inr (.inr rfl)⟩ plain
  · exact absurd ⟨_, _, rfl, .inr (.inl rfl)⟩ plain
  · rfl

/-- A string is taken with its quotes. -/
theorem takes_string {string : String}
    (again : ∀ opening rest, readString opening (used ++ rest) = .ok (string, rest)) :
    Takes (readWith nested) ('"' :: used) (.str string) := by
  intro rest _
  rw [List.cons_append, readWith, again]
  rfl

theorem takes_array {read : List Char → Except Refusal (Parsed Json)} {value : Json}
    (takes : Takes (readContainer .array read .arr) used value) :
    Takes (readWith (some read)) ('[' :: used) value := by
  intro rest ended
  rw [List.cons_append, readWith, readArray_eq]
  exact takes rest ended

theorem takes_object {read : List Char → Except Refusal (Parsed Json)} {value : Json}
    (takes : Takes (readContainer .object (readMember read)
      fun members => .obj (Table.ofList members).entries) used value) :
    Takes (readWith (some read)) ('\x7b' :: used) value := by
  intro rest ended
  rw [List.cons_append, readWith, readObject_eq]
  exact takes rest ended

/-- A word or a number is taken as such. -/
theorem takes_scalar {value : Json} (plain : ¬ Opens used) (any : used ≠ [])
    (takes : Takes readScalar used value) : Takes (readWith nested) used value := by
  intro rest ended
  cases used with
  | nil => exact absurd rfl any
  | cons c used =>
      have plainer : ¬ Opens (c :: used ++ rest) := by
        rintro ⟨d, others, ⟨⟩, opened⟩
        exact plain ⟨c, _, rfl, opened⟩
      rw [readWith_of_not_opens plainer]
      exact takes rest ended

theorem frames_readWith (frames : ∀ read ∈ nested, Frames read) : Frames (readWith nested) := by
  intro text value rest parsed
  by_cases opens : Opens text
  · obtain ⟨c, after, rfl, rfl | rfl | rfl⟩ := opens
    · obtain ⟨⟨string, left⟩, found, equal⟩ := bind_eq_ok_iff.mp parsed
      cases equal
      obtain ⟨used, rfl, again⟩ := readString_frame found
      exact ⟨_, List.cons_ne_nil _ _, rfl, takes_string again⟩
    · cases nested with
      | none => cases parsed
      | some read =>
          rw [readWith, readArray_eq] at parsed
          obtain ⟨used, _, rfl, takes⟩ := frames_readContainer (frames read rfl) _ _ _ parsed
          exact ⟨_, List.cons_ne_nil _ _, rfl, takes_array takes⟩
    · cases nested with
      | none => cases parsed
      | some read =>
          rw [readWith, readObject_eq] at parsed
          obtain ⟨used, _, rfl, takes⟩ :=
            frames_readContainer (frames_readMember (frames read rfl)) _ _ _ parsed
          exact ⟨_, List.cons_ne_nil _ _, rfl, takes_object takes⟩
  · rw [readWith_of_not_opens opens] at parsed
    obtain ⟨used, any, rfl, takes⟩ := frames_readScalar _ _ _ parsed
    exact ⟨used, any, rfl, takes_scalar (fun begins => opens begins.append) any takes⟩

theorem frames_readValue (depth : Nat) : Frames (readValue depth) := by
  induction depth with
  | zero => exact frames_readWith fun read member => nomatch member
  | succ depth ih =>
      apply frames_readWith
      intro read member
      cases member
      exact ih

end Values

end LexiconCompiler.Json
