import ReportQuery.Decimal.Reader
import ReportQuery.Macro.Value
/-!
# Values of expressions

An expression has a number, a text or a truth value. A text that is a number, blanks
around it aside, counts as that number wherever a number is wanted.
-/

namespace ReportQuery

open ReportQuery.Text ReportQuery.Decimal

/-- The value of an expression. -/
inductive Value where
  | number (x : Float)
  | text (s : String)
  | bool (b : Bool)

namespace Value

/-- The name of a value's type. -/
def typeName : Value → String
  | number _ => "number"
  | text _ => "string"
  | bool _ => "boolean"

/-- The number of a value, if it has one. -/
def number? : Value → Option Float
  | number x => some x
  | text s => readFloat? (trim s.toList)
  | bool _ => none

/-- Whether a value counts as true: a number other than zero, a text that is not
empty, or the truth value true. -/
def isTrue : Value → Bool
  | number x => x != 0 && !x.isNaN
  | text s => s ≠ ""
  | bool b => b

/-- Integers of less than sixteen digits are written without a sign on zero; all other
numbers have the plain notation. -/
def numberText (x : Float) : List Char :=
  match unpack x with
  | .finite _ mantissa exponent =>
    if isIntegral mantissa exponent ∧ (toInteger x).natAbs < 1000000000000000 then intDigits (toInteger x)
    else plain x
  | _ => plain x

/-- The text of a value. -/
def display : Value → List Char
  | number x => numberText x
  | text s => s.toList
  | bool b => MacroValue.boolText b

/-- The value of a macro. -/
def ofMacro : MacroValue → Value
  | .bool b => bool b
  | .int i => number (ofInt64 i)
  | .double x => number x
  | .text s => text s

end Value
end ReportQuery
