import LexiconCompiler.Text.Hexadecimal
import LexiconCompiler.Text.Printable

/-!
# Quoted text

Messages show a text between quotes in such a way that every character of it can
be told: the quote in use, backslashes and characters that are not printable are
escaped with a backslash.
-/

namespace LexiconCompiler.Text

/-- The quote put around a text: the single one, unless only the double one can
stand unescaped. -/
def quoteFor (text : List Char) : Char :=
  if '\'' ∈ text ∧ '"' ∉ text then '"' else '\''

/-- A character as it stands between quotes. -/
def quotedChar (quote c : Char) : List Char :=
  if c = quote ∨ c = '\\' then ['\\', c]
  else if c = '\n' then ['\\', 'n']
  else if c = '\r' then ['\\', 'r']
  else if c = '\t' then ['\\', 't']
  else if isPrintable c then [c]
  else if c.toNat ≤ 0xFF then '\\' :: 'x' :: hexDigits 2 c.toNat
  else if c.toNat ≤ 0xFFFF then '\\' :: 'u' :: hexDigits 4 c.toNat
  else '\\' :: 'U' :: hexDigits 8 c.toNat

/-- A text between quotes. -/
def quoted (text : String) : String :=
  let quote := quoteFor text.toList
  String.ofList ([quote] ++ text.toList.flatMap (quotedChar quote) ++ [quote])

end LexiconCompiler.Text
