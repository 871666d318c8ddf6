/-!
# JSON values

The values that a JSON text can hold. An object keeps its members in the order of
the text; a number with a fraction or an exponent keeps its spelling, because its
value is never computed with.
-/

namespace LexiconCompiler

/-- A JSON value. -/
inductive Json where
  | null
  | bool (value : Bool)
  | int (value : Int)
  | real (spelling : String)
  | str (value : String)
  | arr (items : List Json)
  | obj (members : List (String × Json))
  deriving Inhabited, Repr

namespace Json

/-- The members of an object. -/
def members? : Json → Option (List (String × Json))
  | .obj members => some members
  | _ => none

/-- The items of an array. -/
def items? : Json → Option (List Json)
  | .arr items => some items
  | _ => none

/-- The text of a string. -/
def text? : Json → Option String
  | .str value => some value
  | _ => none

/-- The value of a whole number. Truth values are not numbers. -/
def integer? : Json → Option Int
  | .int value => some value
  | _ => none

end Json

end LexiconCompiler
