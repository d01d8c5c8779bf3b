import ReportQuery.Json.Basic
import ReportQuery.Query.Clause
import ReportQuery.Query.Comment
import ReportQuery.Query.Normal
import ReportQuery.Query.SelectItem
import ReportQuery.Schema.Descriptor
/-!
# Compiled queries

A compiled query is the text to send, the resource it selects from, and its
columns in the order of the select list, each with the type of what it holds.
-/

namespace ReportQuery

open ReportQuery.Text ReportQuery.Query

/-- A column of a compiled query. -/
structure Column where
  /-- The name of the column in the result. -/
  name : String
  /-- The path of the selected field. -/
  field : String
  customizer : Option Customizer
  type : FieldType
deriving DecidableEq

/-- The resource that a query selects from. -/
structure Source where
  /-- The word after `FROM`. -/
  name : String
  type : StructType

/-- A compiled query. -/
structure CompiledQuery where
  /-- The text to send. -/
  text : String
  source : Source
  columns : List Column

namespace Query

/-- Reads the items of a select list, whose first one stands at `index`. -/
def readItems (index : Nat) : List (List Char) → Except QueryError (List SelectItem)
  | [] => .ok []
  | item :: rest => do
    let first ← SelectItem.read index item
    return first :: (← readItems (index + 1) rest)

/-- Reads the select list of a query without comments. -/
def selectItems (query : List Char) : Except QueryError (List SelectItem) :=
  match selectClause? query with
  | none => .error .noSelectClause
  | some clause =>
    match items clause.list with
    | [] => .error .noItems
    | list => readItems 0 list

/-- The first name that occurs a second time, with the place of that occurrence,
after the names `seen`. -/
def firstRepeated? (seen : List String) : List String → Option (String × Nat)
  | [] => none
  | name :: rest =>
    if name ∈ seen then some (name, seen.length) else firstRepeated? (seen ++ [name]) rest

/-- The type of the column of a field and its customizer. The first segment of the
field names a resource of the row, which need not be the one selected from. -/
def columnType (s : Schema) (field : String) (customizer : Option Customizer) :
    Except QueryError FieldType := do
  let path := segments field
  let root ← (s.resource (path.headD "")).mapError .schema
  let base ← (s.fieldType root (path.drop 1)).mapError .schema
  match customizer with
  | some (.nestedField nested) =>
    match base.type.fields? with
    | none => .error (.nestedPathOnScalar field base.type.kind base.type.typeName)
    | some struct =>
      let inner ← (s.fieldType struct (segments nested)).mapError .schema
      return { inner.fieldType with repeated := inner.repeated || base.repeated }
  | _ => return base.fieldType

/-- The columns of a list of select items. -/
def columns (s : Schema) (selected : List SelectItem) : Except QueryError (List Column) :=
  selected.mapM fun item => do
    return ⟨item.columnName, item.field, item.customizer,
      ← columnType s item.field item.customizer⟩

/-- The resource that a query without comments selects from. -/
def source (s : Schema) (query : List Char) : Except QueryError Source :=
  match resourceWord? query with
  | none => .error .noResource
  | some word => do
    let name := String.ofList word
    return ⟨name, ← (s.resource name).mapError .schema⟩

/-- Compiles a query. The first fault counts, in this order: placeholders without a
value, the select list, the names of the columns, the resource, the types of the
columns. -/
def compile (s : Schema) (parameters : Entries String) (text : List Char) :
    Except QueryError CompiledQuery := do
  let query := stripComments text
  let sent ← normalize parameters query
  let selected ← selectItems query
  match firstRepeated? [] (selected.map SelectItem.columnName) with
  | some (name, index) => .error (.duplicateColumn name index)
  | none =>
    let source ← source s query
    let columns ← columns s selected
    return ⟨String.ofList sent, source, columns⟩

end Query

/-- The place of the first column of a name. -/
def CompiledQuery.column? (q : CompiledQuery) (name : String) : Option Nat :=
  q.columns.findIdx? fun c => c.name = name

/-! ## The data value of a compiled query -/

/-- The data value of a customizer. -/
def Query.Customizer.toJson : Customizer → Json
  | .resourceIndex index =>
    .object [("type", .string "resource_index"), ("value", .number (.ofInt64 index))]
  | .nestedField path => .object [("type", .string "nested_field"), ("value", .string path)]

/-- The data value of a column type. -/
def FieldType.toJson (t : FieldType) : Json :=
  .object [("kind", .string t.kind.name), ("type_name", .string t.typeName),
    ("repeated", .bool t.repeated)]

/-- The data value of a compiled query: the columns part by part. -/
def CompiledQuery.toJson (q : CompiledQuery) : Json :=
  .object [
    ("query_text", .string q.text),
    ("fields", .array (q.columns.map fun c => .string c.field)),
    ("column_names", .array (q.columns.map fun c => .string c.name)),
    ("customizers", .array (q.columns.map fun c => match c.customizer with
      | none => .null
      | some z => z.toJson)),
    ("resource", .object [
      ("name", .string q.source.name),
      ("type_name", .string q.source.type.name),
      ("type_meta", q.source.type.toJson)]),
    ("column_types", .array (q.columns.map fun c => c.type.toJson))]

end ReportQuery
