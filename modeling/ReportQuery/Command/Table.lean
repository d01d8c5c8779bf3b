import ReportQuery.Json.Writer
import ReportQuery.Query.Compiled
/-!
# Tables of columns

A compiled query as a text for people: where it comes from, the text to send, and a line for
every column.
-/

namespace ReportQuery

open ReportQuery.Text

/-- A text with blanks after it, up to a width in characters. -/
def padEnd (width : Nat) (text : List Char) : List Char :=
  text ++ List.replicate (width - text.length) ' '

/-- A text with blanks before it, up to a width in characters. -/
def padStart (width : Nat) (text : List Char) : List Char :=
  List.replicate (width - text.length) ' ' ++ text

/-- The text of a column type. -/
def FieldType.display (t : FieldType) : List Char :=
  t.kind.name.toList ++ ':' :: t.typeName.toList ++ (if t.repeated then ['[', ']'] else [])

/-- The line of the column at a place. -/
def Column.line (index : Nat) (c : Column) : List Char :=
  padStart 3 (natDigits index) ++ [' ', ' '] ++ padEnd 30 c.name.toList ++
    ' ' :: padEnd 40 c.field.toList ++ ' ' :: c.type.display ++
    (match c.customizer with
      | none => []
      | some z => ' ' :: z.toJson.compact)

/-- The text of a compiled query that has been read from a file. -/
def CompiledQuery.table (file : String) (q : CompiledQuery) : List Char :=
  join ['\n'] <|
    s!"-- Source: {file}".toList ::
    s!"-- Resource: {q.source.name} ({q.source.type.name})".toList ::
    q.text.toList ::
    [] ::
    q.columns.zipIdx.map fun (c, i) => c.line i

end ReportQuery
