import LexiconCompiler.Encoding.Detection
import LexiconCompiler.Json.Reader
import LexiconCompiler.Schema.Decoding

/-!
# Documents

A document is read from text or from bytes, its envelope is checked, and its
definitions are decoded one by one.
-/

namespace LexiconCompiler

/-- What a document is read from. -/
inductive Input where
  | text (content : List Char)
  | bytes (content : List UInt8)
  deriving DecidableEq, Repr

/-- Why no document is read. -/
inductive ReadFailure where
  | rejected (error : Error)
  /-- A whole number in the document has too many digits to be read. -/
  | integerTooLong (digits : Nat)
  deriving DecidableEq, Repr

/-- The failure of a document as a whole. -/
def DocumentProblem.error (problem : DocumentProblem) (source : Option String) : Error where
  cause := .document problem
  identifier := source
  tag := none

namespace Input

/-- The characters of an input. A text may not start with a byte order mark; the mark
of bytes is taken off while they are decoded. -/
def characters : Input → Except DocumentProblem (List Char)
  | text ('\uFEFF' :: _) => .error (.misplaced .byteOrderMark (Json.Place.after []))
  | text content => .ok content
  | bytes content =>
      match Encoding.decode content with
      | .ok characters => .ok characters
      | .error fault => .error (.undecodable fault)

end Input

/-- The value of a text, with every refusal in the words of a document. -/
def readJson (depth : Nat) (source : Option String) (characters : List Char) :
    Except ReadFailure Json :=
  match Json.read depth characters with
  | .ok value => .ok value
  | .error (.misplaced complaint rest) =>
      let problem := .misplaced complaint (Json.Place.ofRest characters rest)
      .error (.rejected (DocumentProblem.error problem source))
  | .error (.tooDeep container) =>
      .error (.rejected (DocumentProblem.error (.tooDeep container) source))
  | .error (.integerTooLong digits) => .error (.integerTooLong digits)

namespace Document

/-- A member of the envelope that has to be there. -/
def field (source : Option String) (members : List (String × Json)) (key : String) :
    Except Error Json :=
  match Table.valueIn key members with
  | some value => .ok value
  | none => .error (DocumentProblem.error (.missingField key) source)

/-- The definitions of a document, of which there has to be at least one. -/
def definitionsOf (source : String) (raw : Json) : Except Error (Table String Json) :=
  match raw.members? with
  | some (first :: others) => .ok (Table.ofList (first :: others))
  | _ => .error (DocumentProblem.error .definitionsNotObject (some source))

/-- The description of a document. -/
def descriptionOf (source : String) : Option Json → Except Error (Option String)
  | none => .ok none
  | some raw =>
      match raw.text? with
      | some description => .ok (some description)
      | none => .error (DocumentProblem.error .descriptionNotText (some source))

/-- Check the envelope of a document. Once the id is accepted, it names the document in
errors if no source does. -/
def ofJson (source : Option String) (raw : Json) : Except Error Document :=
  match raw.members? with
  | none => .error (DocumentProblem.error .notObject source)
  | some members => do
      let version ← field source members "lexicon"
      let id ← field source members "id"
      let definitions ← field source members "defs"
      match version.integer?, id.text?.filter (· ≠ "") with
      | none, _ => .error (DocumentProblem.error .versionNotInteger source)
      | some _, none => .error (DocumentProblem.error .idNotText source)
      | some version, some id => do
          let named := (source.filter (· ≠ "")).getD id
          let definitions ← definitionsOf named definitions
          let description ← descriptionOf named (Site.present? members "description")
          .ok { version, id, description, definitions }

/-- Read a document whose containers are nested at most `depth` deep, and check its
envelope. -/
def parse (depth : Nat) (source : Option String) (input : Input) :
    Except ReadFailure Document :=
  match input.characters with
  | .error problem => .error (.rejected (DocumentProblem.error problem source))
  | .ok characters => do
      let raw ← readJson depth source characters
      match ofJson source raw with
      | .ok document => .ok document
      | .error error => .error (.rejected error)

/-- Decode one entry of a document under its qualified id. -/
def decodeEntry (document : Document) (entry : String × Json) : Except Error Definition :=
  Definition.decode (Name.qualified document.id entry.1) entry.2

/-- Decode every definition of a document, in order. -/
def expand (document : Document) : Except Error (List Definition) :=
  document.definitions.entries.mapM document.decodeEntry

end Document

end LexiconCompiler
