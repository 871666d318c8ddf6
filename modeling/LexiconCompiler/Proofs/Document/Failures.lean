import LexiconCompiler.Host
import LexiconCompiler.Proofs.Document.Envelope
import LexiconCompiler.Proofs.Json.Limits

/-!
# Inputs that are not read

Whatever is wrong with an input is reported as a malformed document, with one exception: a
whole number with too many digits ends the reading by a failure of its own. This happens
exactly for the inputs that read well up to such a number.
-/

namespace LexiconCompiler

open Traversal

variable {depth digits : Nat} {source : Option String} {text : List Char} {input : Input}
  {error : Error}

/-- An input, whose containers may be nested so deep, comes to a whole number of too many
digits. -/
def Input.ReachesLong (input : Input) (depth digits : Nat) : Prop :=
  ∃ text, input.characters = .ok text ∧ Json.Reaches (Json.read depth) text digits

/-- An error is about a document as a whole. -/
def Error.IsMalformed (error : Error) : Prop :=
  ∃ problem identifier, error = DocumentProblem.error problem identifier

theorem isMalformed_of_readJson (failed : readJson depth source text = .error (.rejected error)) :
    error.IsMalformed := by
  rw [readJson] at failed
  split at failed
  · cases failed
  · cases failed
    exact ⟨_, _, rfl⟩
  · cases failed
    exact ⟨_, _, rfl⟩
  · cases failed

theorem readJson_eq_integerTooLong_iff :
    readJson depth source text = .error (.integerTooLong digits) ↔
      Json.Reaches (Json.read depth) text digits := by
  rw [← Json.read_eq_integerTooLong_iff, readJson]
  constructor
  · intro failed
    split at failed
    · cases failed
    · cases failed
    · cases failed
    · rename_i long
      cases failed
      exact long
  · intro long
    rw [long]

namespace Document

theorem isMalformed_of_ofJson {raw : Json} (failed : ofJson source raw = .error error) :
    error.IsMalformed := by
  by_cases object : ∃ members, raw = .obj members
  · obtain ⟨members, rfl⟩ := object
    obtain ⟨problem, identifier, same, _⟩ := blames_of_ofJson failed
    exact ⟨problem, identifier, same⟩
  · push Not at object
    cases failed.symm.trans (ofJson_of_not_object object)
    exact ⟨_, _, rfl⟩

/-- An input that is rejected is rejected as a malformed document. -/
theorem isMalformed_of_parse (failed : parse depth source input = .error (.rejected error)) :
    error.IsMalformed := by
  rw [parse] at failed
  split at failed
  · cases failed
    exact ⟨_, _, rfl⟩
  · rcases bind_eq_error_iff.mp failed with unread | ⟨raw, _, unchecked⟩
    · exact isMalformed_of_readJson unread
    · split at unchecked
      · cases unchecked
      · rename_i refused
        cases unchecked
        exact isMalformed_of_ofJson refused

/-- The reading of an input ends early without an error exactly if the input comes to a whole
number of too many digits. -/
theorem parse_eq_integerTooLong_iff (source : Option String) :
    parse depth source input = .error (.integerTooLong digits) ↔
      input.ReachesLong depth digits := by
  rw [parse, Input.ReachesLong]
  cases characters : input.characters with
  | error problem => simp
  | ok text =>
      simp only [Except.ok.injEq, exists_eq_left']
      constructor
      · intro failed
        rcases bind_eq_error_iff.mp failed with long | ⟨raw, _, unchecked⟩
        · exact readJson_eq_integerTooLong_iff.mp long
        · split at unchecked <;> cases unchecked
      · intro reaches
        exact bind_eq_error_iff.mpr (.inl (readJson_eq_integerTooLong_iff.mpr reaches))

/-- An input gives a document or is rejected as a malformed one exactly if it does not come to
a whole number of too many digits. -/
theorem parse_reports_iff (depth : Nat) (source : Option String) (input : Input) :
    ((∃ document, parse depth source input = .ok document) ∨
        ∃ error, parse depth source input = .error (.rejected error) ∧
          error.cause.category = .malformedDocument) ↔
      ∀ digits, ¬ input.ReachesLong depth digits := by
  simp only [← parse_eq_integerTooLong_iff source]
  constructor
  · rintro (⟨document, parsed⟩ | ⟨error, rejected, _⟩) digits long
    · cases parsed.symm.trans long
    · cases rejected.symm.trans long
  · intro short
    cases parsed : parse depth source input with
    | ok document => exact .inl ⟨document, rfl⟩
    | error failure =>
        cases failure with
        | rejected error =>
            obtain ⟨problem, identifier, rfl⟩ := isMalformed_of_parse parsed
            exact .inr ⟨_, rfl, rfl⟩
        | integerTooLong digits => exact absurd parsed (short digits)

/-! ## A version of too many digits -/

/-- A version of some number of digits. -/
def ones (digits : Nat) : Json.Numeral :=
  ⟨false, List.replicate digits '1', [], []⟩

/-- A document whose version has some number of digits. -/
def longVersion (digits : Nat) : List Char :=
  "\x7b\"lexicon\":".toList ++ ((ones digits).spelling ++
    ",\"id\":\"a.b\",\"defs\":\x7b\"main\":\x7b\"type\":\"token\"\x7d\x7d\x7d".toList)

theorem proper_ones (any : digits ≠ 0) : (ones digits).Proper where
  digits := by
    constructor
    · simpa [ones] using any
    · intro c member
      rw [List.eq_of_mem_replicate member]
      decide
  leading := by
    intro zero
    cases List.eq_of_mem_replicate (List.mem_of_mem_head? zero)
  fraction := .inl rfl
  exponent := .inl rfl

/-- The text before the version reads well. -/
theorem reachesLong_longVersion (long : Json.Refusal.digitLimit < digits) :
    (Input.text (longVersion digits)).ReachesLong (depth + 1) digits := by
  have awaits : Json.Awaits (Json.read (depth + 1)) "\x7b\"lexicon\":".toList := by
    cases depth <;> rfl
  refine ⟨longVersion digits, rfl, _, _, rfl, awaits, ?_⟩
  exact (proper_ones (Nat.ne_zero_of_lt long)).startsTooLong rfl List.length_replicate long
    (Json.ended_cons.mpr (by decide))

end Document

end LexiconCompiler
