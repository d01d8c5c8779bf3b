import ReportQuery.Expr.Error
/-!
# Causes of macro errors
-/

namespace ReportQuery

/-- Why macros cannot be put into a text. -/
inductive MacroError where
  /-- A value starts like a date literal and is none. -/
  | dateFormat (name value : String)
  /-- A date literal leads out of the range of dates. -/
  | dateOutOfRange (name value : String)
  /-- An expression has no value. -/
  | expression (source : String) (cause : ExprError)
deriving DecidableEq

/-- The text of an error. -/
def MacroError.message : MacroError → String
  | dateFormat name value =>
    s!"Macro {name} has incorrect format '{value}', expected :YYYYMMDD-1, or :YYYYMM-1, or :YYYY-1"
  | dateOutOfRange name value => s!"Macro {name} resolves to a date out of range ('{value}')"
  | expression source cause =>
    "failed to evaluate expression '$\x7b" ++ source ++ "\x7d': " ++ cause.message

end ReportQuery
