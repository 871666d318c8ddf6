import LexiconCompiler.Proofs.Json.Series

/-!
# Whole numbers that are too long

A text that is read comes to an end for one reason of its own kind: a whole number with more
digits than are read. The reader refuses a text for such a number exactly if it comes to one,
that is, if the text before the number would be refused only because a value is missing at
its end.
-/

namespace LexiconCompiler.Json

open Traversal

variable {α : Type} {text rest before : List Char} {digits : Nat} {container : Container}
  {entry : List Char → Except Refusal (Parsed α)} {build : List α → Json}
  {read : List Char → Except Refusal (Parsed Json)}

/-- A text starts with a whole number of too many digits. -/
def StartsTooLong (text : List Char) (digits : Nat) : Prop :=
  ∃ numeral, numeralAt? text = some numeral ∧ numeral.isWhole = true ∧
    numeral.whole.length = digits ∧ Refusal.digitLimit < digits

/-- A reader refuses a text because a value is missing at its end. -/
def Awaits (read : List Char → Except Refusal α) (text : List Char) : Prop :=
  read text = .error (.misplaced .expectedValue [])

/-- A reader of a text comes to a whole number of too many digits. -/
def Reaches (read : List Char → Except Refusal α) (text : List Char) (digits : Nat) : Prop :=
  ∃ before rest, text = before ++ rest ∧ Awaits read before ∧ StartsTooLong rest digits

/-- A reader refuses a text for the length of a number exactly if it comes to the number. -/
def StopsAtLong (read : List Char → Except Refusal α) : Prop :=
  ∀ text digits, read text = .error (.integerTooLong digits) ↔ Reaches read text digits

/-- A text is refused for a missing value in one way. -/
theorem refuse_eq_awaited_iff {complaint : Complaint} :
    (refuse complaint rest : Except Refusal α) = .error (.misplaced .expectedValue []) ↔
      complaint = .expectedValue ∧ rest = [] := by
  simp [refuse]

/-! ## The number -/

theorem StartsTooLong.startsPlain (starts : StartsTooLong text digits) : StartsPlain text := by
  obtain ⟨numeral, found, _⟩ := starts
  obtain ⟨proper, left, rfl⟩ := numeralAt?_spec found
  exact proper.startsPlain.append

theorem StartsTooLong.head_ne (starts : StartsTooLong text digits) {c : Char}
    (special : isSpecial c = true) : text.head? ≠ some c := by
  obtain ⟨d, after, rfl, plain⟩ := starts.startsPlain
  rintro ⟨⟩
  cases special.symm.trans plain

theorem StartsTooLong.unlaid (starts : StartsTooLong rest digits) : Unlaid rest :=
  starts.startsPlain.unlaid

theorem StartsTooLong.ne_nil (starts : StartsTooLong rest digits) : rest ≠ [] := by
  obtain ⟨c, after, rfl, _⟩ := starts.startsPlain
  exact List.cons_ne_nil c after

theorem StartsTooLong.exists_succ {budget : Nat} (starts : StartsTooLong rest digits)
    (bound : (before ++ rest).length ≤ budget) : ∃ less, budget = less + 1 := by
  have any := List.length_pos_iff.mpr starts.ne_nil
  rw [List.length_append] at bound
  exact ⟨budget - 1, by omega⟩

/-- A text starts with a number whose digits are too many and which comes to an end. -/
theorem Numeral.Proper.startsTooLong {numeral : Numeral} (proper : numeral.Proper)
    (whole : numeral.isWhole = true) (length : numeral.whole.length = digits)
    (long : Refusal.digitLimit < digits) (ended : Ended rest) :
    StartsTooLong (numeral.spelling ++ rest) digits :=
  ⟨numeral, proper.numeralAt? ended, whole, length, long⟩

/-- Layout before a number is skipped, and nothing else of what comes before it. -/
theorem skipLayout_append_of_unlaid (before : List Char) (unlaid : Unlaid rest) :
    skipLayout (before ++ rest) = skipLayout before ++ rest := by
  obtain ⟨blanks, layout, split⟩ := exists_layout_append before
  have follows : Unlaid (skipLayout before ++ rest) := by
    cases spelled : skipLayout before with
    | nil => exact unlaid
    | cons c after =>
        have starts := unlaid_skipLayout before
        rw [spelled] at starts
        exact starts.append (List.cons_ne_nil _ _)
  conv_lhs => rw [split, List.append_assoc]
  exact skipLayout_append layout follows

/-! ## Words and numbers -/

theorem numeralValue_eq_error_iff {numeral : Numeral} :
    numeralValue numeral = .error (.integerTooLong digits) ↔
      numeral.isWhole = true ∧ numeral.whole.length = digits ∧ Refusal.digitLimit < digits := by
  rw [numeralValue]
  constructor
  · intro fails
    split at fails
    · rename_i whole
      split at fails
      · rename_i long
        cases fails
        exact ⟨whole, rfl, long⟩
      · cases fails
    · cases fails
  · rintro ⟨whole, rfl, long⟩
    rw [if_pos whole, if_pos long]

theorem readScalar_eq_error_iff :
    readScalar text = .error (.integerTooLong digits) ↔ StartsTooLong text digits := by
  constructor
  · intro fails
    rw [readScalar] at fails
    split at fails
    · cases fails
    · split at fails
      · cases fails
      · rename_i numeral found
        rcases bind_eq_error_iff.mp fails with long | ⟨_, _, impossible⟩
        · exact ⟨numeral, found, numeralValue_eq_error_iff.mp long⟩
        · cases impossible
  · rintro ⟨numeral, found, long⟩
    rw [readScalar, wordAt?_of_numeralAt? found, found]
    dsimp only
    rw [numeralValue_eq_error_iff.mpr long]
    rfl

/-- A word or a number is missing at the end of the empty text only. -/
theorem awaits_readScalar_iff : Awaits readScalar text ↔ text = [] := by
  constructor
  · intro awaits
    rw [Awaits, readScalar] at awaits
    split at awaits
    · cases awaits
    · split at awaits
      · cases awaits
        rfl
      · rcases bind_eq_error_iff.mp awaits with long | ⟨_, _, impossible⟩
        · rw [numeralValue] at long
          split at long
          · split at long <;> cases long
          · cases long
        · cases impossible
  · rintro rfl
    rfl

/-! ## Keys -/

/-- A refusal that is not about a value that is missing or too long. -/
def Elsewhere (refusal : Refusal) : Prop :=
  ∃ complaint rest, refusal = .misplaced complaint rest ∧ complaint ≠ .expectedValue

theorem withPiece_eq_error_iff {piece : Piece} {refusal : Refusal}
    {result : Except Refusal (Parsed (List Piece))} :
    withPiece piece result = .error refusal ↔ result = .error refusal := by
  cases result with
  | error other => rfl
  | ok found =>
      constructor
      · rintro ⟨⟩
      · rintro ⟨⟩

theorem elsewhere_of_readPieces {opening : List Char} {state : StringState} {refusal : Refusal}
    (fails : readPieces opening state text = .error refusal) : Elsewhere refusal := by
  induction text generalizing state with
  | nil =>
      cases state <;>
        · cases fails
          exact ⟨_, _, rfl, by decide⟩
  | cons c text ih =>
      cases state with
      | between =>
          rw [readPieces] at fails
          split at fails
          · cases fails
          · split at fails
            · exact ih fails
            · split at fails
              · cases fails
                exact ⟨_, _, rfl, by decide⟩
              · exact ih (withPiece_eq_error_iff.mp fails)
      | escape place =>
          rw [readPieces] at fails
          split at fails
          · exact ih fails
          · split at fails
            · exact ih (withPiece_eq_error_iff.mp fails)
            · cases fails
              exact ⟨_, _, rfl, by decide⟩
      | codeUnit place owed value =>
          rw [readPieces] at fails
          split at fails
          · cases fails
            exact ⟨_, _, rfl, by decide⟩
          · dsimp only at fails
            split at fails
            · exact ih fails
            · split at fails
              · cases fails
                exact ⟨_, _, rfl, by decide⟩
              · exact ih (withPiece_eq_error_iff.mp fails)

theorem elsewhere_of_readString {opening : List Char} {refusal : Refusal}
    (fails : readString opening text = .error refusal) : Elsewhere refusal := by
  rcases bind_eq_error_iff.mp fails with pieces | ⟨_, _, impossible⟩
  · exact elsewhere_of_readPieces pieces
  · cases impossible

theorem elsewhere_of_readKey {refusal : Refusal} (fails : readKey text = .error refusal) :
    Elsewhere refusal := by
  unfold readKey at fails
  split at fails
  · rcases bind_eq_error_iff.mp fails with string | ⟨found, _, ended⟩
    · exact elsewhere_of_readString string
    · dsimp only at ended
      split at ended
      · cases ended
      · cases ended
        exact ⟨_, _, rfl, by decide⟩
  · cases fails
    exact ⟨_, _, rfl, by decide⟩

theorem Elsewhere.not_long : ¬ Elsewhere (.integerTooLong digits) := by
  rintro ⟨complaint, rest, impossible, _⟩
  cases impossible

theorem Elsewhere.not_awaited : ¬ Elsewhere (.misplaced .expectedValue rest) := by
  rintro ⟨complaint, left, same, other⟩
  cases same
  exact other rfl

/-! ## Entries of containers -/

theorem stopsAtLong_readMember (stops : StopsAtLong read) : StopsAtLong (readMember read) := by
  intro text digits
  constructor
  · intro fails
    rcases bind_eq_error_iff.mp fails with keyFails | ⟨⟨key, between⟩, keyed, fails⟩
    · exact absurd (elsewhere_of_readKey keyFails) Elsewhere.not_long
    · rcases bind_eq_error_iff.mp fails with valueFails | ⟨_, _, impossible⟩
      · obtain ⟨before, rest, rfl, awaits, starts⟩ := (stops _ _).mp valueFails
        obtain ⟨unlaid, usedKey, rfl, takes⟩ := exists_takesKey keyed
        refine ⟨usedKey ++ before, rest, by rw [List.append_assoc], ?_, starts⟩
        rw [Awaits, readMember, takes before unlaid.of_append]
        simp only [bind, Except.bind, show read before = _ from awaits]
      · cases impossible
  · rintro ⟨before, rest, rfl, awaits, starts⟩
    rcases bind_eq_error_iff.mp awaits with keyFails | ⟨⟨key, between⟩, keyed, fails⟩
    · exact absurd (elsewhere_of_readKey keyFails) Elsewhere.not_awaited
    · rcases bind_eq_error_iff.mp fails with valueAwaits | ⟨_, _, impossible⟩
      · obtain ⟨unlaid, usedKey, rfl, takes⟩ := exists_takesKey keyed
        have follows : Unlaid (between ++ rest) := by
          cases between with
          | nil => exact starts.unlaid
          | cons c between => exact unlaid.append (List.cons_ne_nil _ _)
        have valueFails := (stops _ _).mpr ⟨between, rest, rfl, valueAwaits, starts⟩
        rw [readMember, List.append_assoc, takes _ follows]
        simp only [bind, Except.bind, valueFails]
      · cases impossible

/-! ## Series and containers -/

section Series

variable (frames : Frames entry) (stops : StopsAtLong entry)
  (owed : entry [] = refuse container.owed [])

include owed in
/-- A series in which nothing is read awaits an entry, whatever its budget. -/
theorem awaits_readSeries_of_entry (awaits : Awaits entry before) {budget : Nat}
    (enough : before.length ≤ budget) : Awaits (readSeries container entry budget) before := by
  cases budget with
  | zero =>
      cases List.eq_nil_of_length_eq_zero (Nat.le_zero.mp enough)
      exact refuse_eq_awaited_iff.mpr (refuse_eq_awaited_iff.mp (owed.symm.trans awaits))
  | succ budget => exact readSeries_failed awaits

include frames stops owed in
/-- A series that is refused for the length of a number comes to the number. The budget is no
part of what is said, since the text before the number is shorter than the text. -/
theorem exists_of_readSeries_eq_error {budget : Nat}
    (fails : readSeries container entry budget text = .error (.integerTooLong digits)) :
    ∃ before rest, text = before ++ rest ∧ StartsTooLong rest digits ∧
      ∀ budget, before.length ≤ budget → Awaits (readSeries container entry budget) before := by
  induction budget generalizing text with
  | zero => cases fails
  | succ budget ih =>
      rcases readSeries_error_cases frames fails with
        here | ⟨used, value, between, next, rfl, takes, goes, later⟩ | ⟨_, impossible⟩
      · obtain ⟨before, rest, split, awaits, starts⟩ := (stops _ _).mp here
        exact ⟨before, rest, split, starts, fun _ => awaits_readSeries_of_entry owed awaits⟩
      -- What was taken up to the comma stands before what the others await.
      · obtain ⟨before, rest, whole, starts, awaits⟩ := ih later
        obtain ⟨blanks, layout, split⟩ := exists_layout_append between
        obtain ⟨spaces, spaced, apart⟩ := exists_layout_append next
        have unlaid := unlaid_skipLayout next
        rw [whole] at unlaid apart
        refine ⟨used ++ (blanks ++ ',' :: (spaces ++ before)), rest, ?_, starts, ?_⟩
        · rw [split, goes, apart]
          simp
        · intro budget enough
          simp only [List.length_append, List.length_cons] at enough
          obtain ⟨less, rfl⟩ : ∃ less, budget = less + 1 := ⟨budget - 1, by omega⟩
          have onward : skipLayout (blanks ++ ',' :: (spaces ++ before)) =
              ',' :: (spaces ++ before) := skipLayout_append layout (unlaid_cons.mpr (by decide))
          have awaited : readSeries container entry less before = _ := awaits less (by omega)
          rw [Awaits, readSeries_more (takes _ (ended_of_goes onward)) onward,
            skipLayout_append spaced unlaid.of_append, awaited]
          rfl
      · cases impossible

include frames stops owed in
/-- A series that awaits an entry is refused for the length of the number that comes next. -/
theorem readSeries_eq_error_of_awaits {budget enough : Nat}
    (awaits : Awaits (readSeries container entry budget) before)
    (starts : StartsTooLong rest digits) (bound : (before ++ rest).length ≤ enough) :
    readSeries container entry enough (before ++ rest) = .error (.integerTooLong digits) := by
  induction budget generalizing before enough with
  | zero =>
      obtain ⟨missed, rfl⟩ := refuse_eq_awaited_iff.mp awaits
      have first := owed.trans (refuse_eq_awaited_iff.mpr ⟨missed, rfl⟩)
      obtain ⟨less, rfl⟩ := starts.exists_succ bound
      exact readSeries_failed ((stops _ _).mpr ⟨[], rest, rfl, first, starts⟩)
  | succ budget ih =>
      obtain ⟨less, rfl⟩ := starts.exists_succ bound
      rcases readSeries_error_cases frames awaits with
        here | ⟨used, value, between, next, rfl, takes, goes, later⟩ | ⟨_, impossible⟩
      · exact readSeries_failed ((stops _ _).mpr ⟨before, rest, rfl, here, starts⟩)
      -- The layout after the comma is skipped alike, because the number is no layout.
      · have onward : skipLayout (between ++ rest) = ',' :: (next ++ rest) := by
          rw [skipLayout_append_of_unlaid between starts.unlaid, goes]
          rfl
        have shorter : (skipLayout next ++ rest).length ≤ less := by
          have skipped := length_skipLayout_le next
          have going := length_skipLayout_le between
          rw [goes] at going
          simp only [List.length_append, List.length_cons] at bound going ⊢
          omega
        rw [List.append_assoc, readSeries_more (takes _ (ended_of_goes onward)) onward,
          skipLayout_append_of_unlaid next starts.unlaid, ih later shorter]
        rfl
      · cases impossible

include frames stops owed in
/-- A container that is refused for the length of a number comes to the number. -/
theorem reaches_of_readContainer
    (fails : readContainer container entry build text = .error (.integerTooLong digits)) :
    Reaches (readContainer container entry build) text digits := by
  obtain ⟨blanks, layout, split⟩ := exists_layout_append text
  have unlaid := unlaid_skipLayout text
  by_cases closes : (skipLayout text).head? = some container.closing
  · obtain ⟨after, closes⟩ := List.head?_eq_some_iff.mp closes
    rw [readContainer_closed closes] at fails
    cases fails
  · rw [readContainer_series closes] at fails
    obtain ⟨before, rest, whole, starts, awaits⟩ :=
      exists_of_readSeries_eq_error frames stops owed (map_eq_error_iff.mp fails)
    rw [whole] at split unlaid closes
    have skipped := skipLayout_append layout unlaid.of_append
    have opens : before.head? ≠ some container.closing := by
      cases before with
      | nil => simp
      | cons c before => exact closes
    have series : readSeries container entry before.length before = _ := awaits _ (Nat.le_refl _)
    refine ⟨blanks ++ before, rest, by rw [split, List.append_assoc], ?_, starts⟩
    rw [Awaits, readContainer_series (by rw [skipped]; exact opens), skipped, series]
    rfl

include frames stops owed in
/-- A container that awaits an entry is refused for the length of the number that comes next. -/
theorem readContainer_eq_error_of_awaits
    (awaits : Awaits (readContainer container entry build) before)
    (starts : StartsTooLong rest digits) :
    readContainer container entry build (before ++ rest) = .error (.integerTooLong digits) := by
  have skipped := skipLayout_append_of_unlaid before starts.unlaid
  by_cases closes : (skipLayout before).head? = some container.closing
  · obtain ⟨after, closes⟩ := List.head?_eq_some_iff.mp closes
    rw [Awaits, readContainer_closed closes] at awaits
    cases awaits
  · rw [Awaits, readContainer_series closes] at awaits
    have series := readSeries_eq_error_of_awaits frames stops owed (map_eq_error_iff.mp awaits)
      starts (Nat.le_refl _)
    have opens : (skipLayout before ++ rest).head? ≠ some container.closing := by
      cases spelled : skipLayout before with
      | nil => exact starts.head_ne container.isSpecial_closing
      | cons c after =>
          rw [spelled] at closes
          exact closes
    rw [readContainer_series (by rw [skipped]; exact opens), skipped, series]
    rfl

include frames stops owed in
theorem stopsAtLong_readContainer : StopsAtLong (readContainer container entry build) := by
  intro text digits
  constructor
  · exact reaches_of_readContainer frames stops owed
  · rintro ⟨before, rest, rfl, awaits, starts⟩
    exact readContainer_eq_error_of_awaits frames stops owed awaits starts

end Series

/-! ## Values and texts -/

/-- Behind a character that starts no number, a reader comes to a number as the reader of the
rest does. -/
theorem reaches_cons_iff {outer inner : List Char → Except Refusal α} {c : Char}
    (opens : ∀ rest, outer (c :: rest) = inner rest)
    (special : isSpecial c = true) :
    Reaches outer (c :: text) digits ↔ Reaches inner text digits := by
  constructor
  · rintro ⟨before, rest, split, awaits, starts⟩
    cases before with
    | nil =>
        cases split
        exact absurd rfl (starts.head_ne special)
    | cons d before =>
        cases split
        exact ⟨before, rest, rfl, (opens before).symm.trans awaits, starts⟩
  · rintro ⟨before, rest, rfl, awaits, starts⟩
    exact ⟨c :: before, rest, rfl, (opens before).trans awaits, starts⟩

/-- A reader that refuses its texts for other reasons only never stops at a number. -/
theorem stopsAtLong_of_elsewhere {read : List Char → Except Refusal α}
    (fails : ∀ text refusal, read text = .error refusal → Elsewhere refusal) :
    StopsAtLong read := by
  intro text digits
  constructor
  · intro long
    exact absurd (fails _ _ long) Elsewhere.not_long
  · rintro ⟨before, rest, rfl, awaits, starts⟩
    exact absurd (fails _ _ awaits) Elsewhere.not_awaited

theorem stopsAtLong_tooDeep {kind : Container} :
    StopsAtLong fun _ => (.error (.tooDeep kind) : Except Refusal (Parsed Json)) := by
  intro text digits
  constructor
  · rintro ⟨⟩
  · rintro ⟨before, rest, rfl, impossible, _⟩
    cases impossible

theorem awaits_readWith {nested : Option (List Char → Except Refusal (Parsed Json))} :
    Awaits (readWith nested) [] :=
  rfl

theorem stopsAtLong_readWith {nested : Option (List Char → Except Refusal (Parsed Json))}
    (frames : ∀ read ∈ nested, Frames read) (stops : ∀ read ∈ nested, StopsAtLong read)
    (awaits : ∀ read ∈ nested, Awaits read []) : StopsAtLong (readWith nested) := by
  intro text digits
  by_cases opens : Opens text
  · obtain ⟨c, after, rfl, opened⟩ := opens
    have special : isSpecial c = true := by
      rcases opened with rfl | rfl | rfl <;> decide
    rw [reaches_cons_iff (fun _ => rfl) special]
    rcases opened with rfl | rfl | rfl
    · have never : StopsAtLong fun after => readWith nested ('"' :: after) := by
        apply stopsAtLong_of_elsewhere
        intro text refusal fails
        rcases bind_eq_error_iff.mp fails with string | ⟨_, _, impossible⟩
        · exact elsewhere_of_readString string
        · cases impossible
      exact never after digits
    · cases nested with
      | none => exact stopsAtLong_tooDeep after digits
      | some read =>
          have items : StopsAtLong (readContainer .array read .arr) :=
            stopsAtLong_readContainer (frames read rfl) (stops read rfl) (awaits read rfl)
          simp only [readWith, readArray_eq]
          exact items after digits
    · cases nested with
      | none => exact stopsAtLong_tooDeep after digits
      | some read =>
          simp only [readWith, readObject_eq]
          exact stopsAtLong_readContainer (frames_readMember (frames read rfl))
            (stopsAtLong_readMember (stops read rfl)) rfl after digits
  · rw [readWith_of_not_opens opens, readScalar_eq_error_iff]
    constructor
    · exact fun starts => ⟨[], text, rfl, awaits_readWith, starts⟩
    · rintro ⟨before, rest, rfl, awaits, starts⟩
      cases before with
      | nil => exact starts
      | cons c before =>
          rw [Awaits, readWith_of_not_opens fun begins => opens begins.append] at awaits
          cases awaits_readScalar_iff.mp awaits

theorem stopsAtLong_readValue (depth : Nat) : StopsAtLong (readValue depth) := by
  induction depth with
  | zero =>
      exact stopsAtLong_readWith (fun _ member => nomatch member) (fun _ member => nomatch member)
        fun _ member => nomatch member
  | succ depth ih =>
      apply stopsAtLong_readWith
      · rintro read ⟨⟩
        exact frames_readValue depth
      · rintro read ⟨⟩
        exact ih
      · rintro read ⟨⟩
        cases depth <;> exact awaits_readWith

/-- A text is refused for the length of a whole number exactly if it reads well up to a number
that is too long. -/
theorem read_eq_integerTooLong_iff {depth : Nat} :
    Json.read depth text = .error (.integerTooLong digits) ↔
      Reaches (Json.read depth) text digits := by
  constructor
  · intro fails
    rcases bind_eq_error_iff.mp fails with value | ⟨⟨_, left⟩, _, extra⟩
    · obtain ⟨blanks, layout, split⟩ := exists_layout_append text
      obtain ⟨before, rest, whole, awaits, starts⟩ := (stopsAtLong_readValue _ _ _).mp value
      have unlaid := unlaid_skipLayout text
      rw [whole] at split unlaid
      refine ⟨blanks ++ before, rest, by rw [split, List.append_assoc], ?_, starts⟩
      rw [Awaits, Json.read, skipLayout_append layout unlaid.of_append,
        show readValue depth before = _ from awaits]
      rfl
    · dsimp only at extra
      split at extra <;> cases extra
  · rintro ⟨before, rest, rfl, awaits, starts⟩
    rcases bind_eq_error_iff.mp awaits with value | ⟨⟨_, left⟩, _, extra⟩
    · have long := (stopsAtLong_readValue _ _ _).mpr ⟨_, rest, rfl, value, starts⟩
      rw [Json.read, skipLayout_append_of_unlaid before starts.unlaid, long]
      rfl
    · dsimp only at extra
      split at extra <;> cases extra

end LexiconCompiler.Json
