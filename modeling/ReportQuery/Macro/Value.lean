import ReportQuery.Decimal.Notation
import ReportQuery.Json.Basic
/-!
# Macros

A macro is a name with a scalar value. The values of a run are kept in a list in
which no name occurs twice; the order of the entries has no meaning.
-/

namespace ReportQuery

open ReportQuery.Text

/-- The value of a macro. -/
inductive MacroValue where
  | bool (b : Bool)
  | int (i : Int64)
  | double (x : Float)
  | text (s : String)

namespace MacroValue

/-- The text of a truth value. -/
def boolText (b : Bool) : List Char :=
  if b then ['t', 'r', 'u', 'e'] else ['f', 'a', 'l', 's', 'e']

/-- The text that a macro stands for in a query. -/
def display : MacroValue → List Char
  | bool b => boolText b
  | int i => intDigits i.toInt
  | double x => Decimal.plain x
  | text s => s.toList

/-- The text of a value that is one. -/
def text? : MacroValue → Option String
  | text s => some s
  | _ => none

/-- The macro value of a scalar data value. An integer beyond the 64-bit range
becomes a double. -/
def ofJson? : Json → Option MacroValue
  | .bool b => some (bool b)
  | .number (.natural n) =>
    if n < 0x8000000000000000 then some (int n.toInt64) else some (double n.toFloat)
  | .number (.negative n) => some (int n)
  | .number (.double x) => some (double x)
  | .string s => some (text s)
  | _ => none

end MacroValue

/-- The macros of a run, by name. -/
abbrev Macros := Entries MacroValue

/-- The macros of an object of scalar data values. -/
def Macros.ofJson? : Json → Option Macros
  | .object members =>
    members.foldlM (fun macros m => do return Entries.set m.1 (← MacroValue.ofJson? m.2) macros) []
  | _ => none

/-- The texts of all macros. -/
def Macros.texts (macros : Macros) : Entries String :=
  macros.map fun m => (m.1, String.ofList m.2.display)

/-- Reads `name=value`, where the name is not blank. The name is trimmed, the value is
taken as it is. -/
def readAssignment? (text : List Char) : Option (String × String) :=
  match cut? ['='] text with
  | none => none
  | some (name, value) =>
    if trim name = [] then none else some (String.ofList (trim name), String.ofList value)

end ReportQuery
