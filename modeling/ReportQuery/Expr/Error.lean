/-!
# Causes of expression errors
-/

namespace ReportQuery

/-- Why an expression has no value. -/
inductive ExprError where
  /-- The text is no expression; the byte offset says where. -/
  | syntactic (offset : Nat)
  | unknownVariable (name : String)
  | unknownFunction (name : String)
  /-- A call with the wrong number of arguments. -/
  | arity (function expected : String) (found : Nat)
  /-- An operand or argument of a type that the operation does not take. -/
  | typeMismatch (operation found : String)
  | divisionByZero
  | dateOutOfRange
deriving DecidableEq

/-- The text of an error. -/
def ExprError.message : ExprError → String
  | syntactic offset => s!"syntax error at offset {offset}"
  | unknownVariable name => s!"undefined symbol '{name}'"
  | unknownFunction name => s!"unknown function '{name}'"
  | arity function expected found =>
    s!"function {function} expects {expected} argument(s), got {found}"
  | typeMismatch operation found => s!"cannot apply '{operation}' to {found}"
  | divisionByZero => "division by zero"
  | dateOutOfRange => "date out of range"

end ReportQuery
