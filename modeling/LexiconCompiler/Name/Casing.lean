import LexiconCompiler.Name.Words

/-!
# Casings of a name

A name is converted to a casing by cutting it into words and joining the words
anew. Words are made of ASCII letters and digits, so the ASCII case maps suffice.
-/

namespace LexiconCompiler.Name

/-- A word with its first character raised and the others lowered. -/
def capitalized : List Char → List Char
  | [] => []
  | c :: rest => c.toUpper :: rest.map Char.toLower

/-- Lowered words joined by underscores. -/
def snakeOf (text : List Char) : List Char :=
  (['_'].intercalate (wordsOf text)).map Char.toLower

/-- Capitalized words joined without a mark. -/
def pascalOf (text : List Char) : List Char :=
  (wordsOf text).flatMap capitalized

/-- As `pascalOf`, with the first word lowered. -/
def camelOf (text : List Char) : List Char :=
  match wordsOf text with
  | [] => []
  | word :: others => word.map Char.toLower ++ others.flatMap capitalized

/-- Raised words joined by underscores. -/
def screamingSnakeOf (text : List Char) : List Char :=
  (snakeOf text).map Char.toUpper

/-- The name in `snake_case`. -/
def snake (name : String) : String :=
  String.ofList (snakeOf name.toList)

/-- The name in `PascalCase`. -/
def pascal (name : String) : String :=
  String.ofList (pascalOf name.toList)

/-- The name in `camelCase`. -/
def camel (name : String) : String :=
  String.ofList (camelOf name.toList)

/-- The name in `SCREAMING_SNAKE_CASE`. -/
def screamingSnake (name : String) : String :=
  String.ofList (screamingSnakeOf name.toList)

@[simp] theorem toList_snake (name : String) : (snake name).toList = snakeOf name.toList := by
  simp [snake]

@[simp] theorem toList_pascal (name : String) :
    (pascal name).toList = pascalOf name.toList := by
  simp [pascal]

@[simp] theorem toList_camel (name : String) : (camel name).toList = camelOf name.toList := by
  simp [camel]

@[simp] theorem toList_screamingSnake (name : String) :
    (screamingSnake name).toList = screamingSnakeOf name.toList := by
  simp [screamingSnake]

end LexiconCompiler.Name
