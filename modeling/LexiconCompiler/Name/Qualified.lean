import LexiconCompiler.Name.Casing

/-!
# Qualified and generated names

A definition is named by the id of its document and its local name. Ids are made of
segments joined by dots, and the last segment names the definition itself. What is
generated for it has names that are made of that segment.
-/

namespace LexiconCompiler.Name

/-- The local name of the definition that a document is about. -/
def mainName : String := "main"

/-- The id of a definition: the id of its document for the main one, and that id, a
dot and the local name for every other. -/
def qualified (documentId localName : String) : String :=
  if localName = mainName then documentId else documentId ++ "." ++ localName

/-- The segments of an id, of which there is at least one. -/
def segments (id : String) : List String :=
  (id.toList.splitOn '.').map String.ofList

theorem segments_ne_nil (id : String) : segments id ≠ [] := by
  simp [segments]

/-- The last segment of an id. -/
def lastSegment (id : String) : String :=
  (segments id).getLast (segments_ne_nil id)

/-- The name of the class generated for an id: its last segment in `PascalCase`. -/
def className (id : String) : String :=
  pascal (lastSegment id)

/-- A field of a definition, as errors name it: the owner, a mark and the field. -/
def member (owner name : String) : String :=
  owner ++ "#" ++ name

/-- A name that a generated module declares once. -/
inductive Generated where
  /-- The name of a class. -/
  | ofClass (name : String)
  /-- The common stem of the constants of a method. -/
  | ofConstants (stem : String)
  deriving DecidableEq, Repr

/-- A generated name as messages show it. -/
def Generated.display : Generated → String
  | ofClass name => name
  | ofConstants stem => stem ++ "_*"

@[simp] theorem qualified_main (documentId : String) :
    qualified documentId mainName = documentId := by
  simp [qualified]

/-- Two local names of one document never share an id. -/
theorem qualified_inj {documentId first second : String} :
    qualified documentId first = qualified documentId second ↔ first = second := by
  constructor
  · intro equal
    simp only [qualified] at equal
    have longer : ∀ name : String, documentId ≠ documentId ++ "." ++ name := by
      intro name same
      have lengths := congrArg String.length same
      simp only [String.length_append] at lengths
      have dot : ".".length = 1 := rfl
      omega
    split at equal <;> split at equal
    · simp_all
    · exact absurd equal (longer second)
    · exact absurd equal.symm (longer first)
    · simpa [String.append_assoc] using equal
  · rintro rfl
    rfl

end LexiconCompiler.Name
