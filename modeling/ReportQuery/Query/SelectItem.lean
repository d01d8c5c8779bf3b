import ReportQuery.Query.Error
import ReportQuery.Text.Casing
import ReportQuery.Text.Integer
/-!
# Select items

A select item is a field path, an optional customizer, and an optional label after
`as`. It is read in lower case. The customizer `~` takes a part of a resource name by
its index, the customizer `:` takes a nested field of a struct; an item that has a
`~` is never read for a `:`.
-/

namespace ReportQuery.Query

open ReportQuery.Text

/-- What is taken of the value of a field. -/
inductive Customizer where
  /-- A part of a resource name, by its index. -/
  | resourceIndex (index : Int64)
  /-- A nested field of a struct, by its path. -/
  | nestedField (path : String)
deriving DecidableEq

/-- A select item. -/
structure SelectItem where
  field : String
  label : Option String
  customizer : Option Customizer
deriving DecidableEq

/-- The name of the column: the label or else the field, without spaces. -/
def SelectItem.columnName (item : SelectItem) : String :=
  String.ofList ((item.label.getD item.field).toList.filter fun c => c ≠ ' ')

/-- Splits an expression into its field and its customizer. The field keeps its
blanks. -/
def splitCustomizer (expression : List Char) :
    Except QueryError (List Char × Option Customizer) :=
  match cells '~' expression with
  | field :: argument :: _ =>
    match readInt64? (trim argument) with
    | some index => .ok (field, some (.resourceIndex index))
    | none => .error (.resourceIndexNotNumber (String.ofList expression))
  | _ =>
    match cells ':' expression with
    | field :: argument :: _ =>
      let path := trim argument
      if path = [] then .error (.emptyNestedPath (String.ofList expression))
      else .ok (field, some (.nestedField (String.ofList path)))
    | _ => .ok (expression, none)

/-- Splits an item at the first ` as `: the expression, and the label if there is
one that is not blank. What follows a second ` as ` is dropped. -/
def splitLabel (item : List Char) : List Char × Option (List Char) :=
  match cut? [' ', 'a', 's', ' '] item with
  | none => (item, none)
  | some (expression, rest) =>
    let name := trim <| match cut? [' ', 'a', 's', ' '] rest with
      | none => rest
      | some (name, _) => name
    (expression, if name = [] then none else some name)

/-- Reads the select item that stands at a place in the list. -/
def SelectItem.read (index : Nat) (item : List Char) : Except QueryError SelectItem := do
  let (expression, label) := splitLabel (lower (trim item))
  let (field, customizer) ← splitCustomizer expression
  let field := trim field
  if field = [] then .error (.emptyItem index)
  else .ok ⟨String.ofList field, label.map String.ofList, customizer⟩

end ReportQuery.Query
