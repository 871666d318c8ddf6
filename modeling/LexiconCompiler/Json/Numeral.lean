/-!
# Numerals

A number as it is written: a sign, whole digits, and perhaps a fraction and an
exponent. The longest numeral at the start of a text is read, so a point or an
exponent mark without a digit after it is left over.
-/

namespace LexiconCompiler.Json

/-- A number as it is written. -/
structure Numeral where
  /-- Whether a minus sign comes first. -/
  negative : Bool
  /-- The digits before the point. -/
  whole : List Char
  /-- The point and the digits after it, if there are any. -/
  fraction : List Char
  /-- The exponent with its mark and sign, if there is one. -/
  exponent : List Char
  deriving DecidableEq, Repr

/-- The digits at the start of a text. -/
def digitsAt (text : List Char) : List Char :=
  text.takeWhile Char.isDigit

/-- The fraction at the start of a text: a point and at least one digit. -/
def fractionAt : List Char → List Char
  | '.' :: rest => if digitsAt rest = [] then [] else '.' :: digitsAt rest
  | _ => []

/-- The sign at the start of a text. -/
def signAt : List Char → List Char
  | '+' :: _ => ['+']
  | '-' :: _ => ['-']
  | _ => []

/-- The exponent at the start of a text: a mark, perhaps a sign, and at least one
digit. -/
def exponentAt : List Char → List Char
  | [] => []
  | mark :: rest =>
      let sign := signAt rest
      let digits := digitsAt (rest.drop sign.length)
      if (mark = 'e' ∨ mark = 'E') ∧ digits ≠ [] then mark :: sign ++ digits else []

namespace Numeral

/-- The characters of a numeral. -/
def spelling (numeral : Numeral) : List Char :=
  (if numeral.negative then ['-'] else []) ++ numeral.whole ++ numeral.fraction ++
    numeral.exponent

/-- Whether a numeral has neither a fraction nor an exponent. -/
def isWhole (numeral : Numeral) : Bool :=
  numeral.fraction.isEmpty && numeral.exponent.isEmpty

/-- The value of the sign and the whole digits. -/
def wholeValue (numeral : Numeral) : Int :=
  let size : Int := Nat.ofDigitChars 10 numeral.whole 0
  if numeral.negative then -size else size

/-- The numeral of a sign and whole digits that goes on in a text. -/
def extended (negative : Bool) (whole rest : List Char) : Numeral :=
  let fraction := fractionAt rest
  { negative, whole, fraction, exponent := exponentAt (rest.drop fraction.length) }

/-- The unsigned part of a numeral at the start of a text: a zero alone, or digits
that do not start with a zero. -/
def unsignedAt? (negative : Bool) : List Char → Option Numeral
  | [] => none
  | c :: rest =>
      if c = '0' then some (extended negative [c] rest)
      else if c.isDigit then
        let whole := c :: digitsAt rest
        some (extended negative whole ((c :: rest).drop whole.length))
      else none

end Numeral

/-- The longest numeral at the start of a text. -/
def numeralAt? : List Char → Option Numeral
  | '-' :: rest => Numeral.unsignedAt? true rest
  | text => Numeral.unsignedAt? false text

end LexiconCompiler.Json
