import LexiconCompiler.Json.Writer

/-!
# Literals

The values that generated constants have, and how they are written in Python. Strings
are written as in JSON, and a tuple of one item keeps a comma after it.
-/

namespace LexiconCompiler.Source

/-- The value of a constant. -/
inductive Literal where
  | none
  | bool (value : Bool)
  | int (value : Int)
  | str (value : String)
  | tuple (items : List Literal)
  deriving Inhabited, Repr

namespace Literal

/-- Items between the parentheses of a tuple. -/
def tupleOf : List (List Char) → List Char
  | [item] => '(' :: item ++ [',', ')']
  | items => '(' :: [',', ' '].intercalate items ++ [')']

mutual

/-- A literal as it is written. -/
def render : Literal → List Char
  | .none => "None".toList
  | .bool true => "True".toList
  | .bool false => "False".toList
  | .int value => Json.writeInt value
  | .str value => Json.writeString value.toList
  | .tuple items => tupleOf (renderAll items)

/-- Literals, each as it is written. -/
def renderAll : List Literal → List (List Char)
  | [] => []
  | item :: rest => render item :: renderAll rest

end

/-- The text of a literal. -/
def text (literal : Literal) : String :=
  String.ofList literal.render

@[simp] theorem renderAll_eq_map (items : List Literal) :
    renderAll items = items.map render := by
  induction items with
  | nil => rfl
  | cons item rest ih => simp [renderAll, ih]

end Literal

end LexiconCompiler.Source
