import ReportQuery.Json.Basic
import ReportQuery.Text.Basic
/-!
# Template parameters

The parameters of a template are data values by name. A text stands for the list of
its parts between commas; an empty text stays as it is.
-/

namespace ReportQuery.Template

open ReportQuery.Text

/-- The value that a parameter stands for. -/
def splitValue : Json → Json
  | .string s =>
    if s = "" then .string s
    else .array ((cells ',' s.toList).map fun part => .string (String.ofList part))
  | v => v

/-- The values that parameters stand for. -/
def splitParameters (params : Entries Json) : Entries Json :=
  params.map fun (name, v) => (name, splitValue v)

end ReportQuery.Template
