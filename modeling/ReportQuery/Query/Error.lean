import ReportQuery.Schema.Error
import ReportQuery.Schema.Resolution
/-!
# Causes of query errors
-/

namespace ReportQuery

/-- The two kinds of query errors: the text is malformed, or what it names is not
in the schema. -/
inductive QueryErrorKind where
  | syntactic
  | resolution
deriving DecidableEq

/-- Why a query does not compile. -/
inductive QueryError where
  /-- A select item names no field. -/
  | emptyItem (index : Nat)
  /-- The argument of `~` is no integer. -/
  | resourceIndexNotNumber (expression : String)
  /-- The path after `:` is empty. -/
  | emptyNestedPath (expression : String)
  /-- Two select items have one name. -/
  | duplicateColumn (name : String) (index : Nat)
  /-- The query has no select list. -/
  | noSelectClause
  /-- The select list has no items. -/
  | noItems
  /-- The query names no resource. -/
  | noResource
  /-- Placeholders without a value. -/
  | unresolvedParameters (names : List String)
  /-- A nested path is asked of a type without fields. -/
  | nestedPathOnScalar (field : String) (kind : TypeKind) (type : String)
  /-- A reference does not resolve. -/
  | schema (cause : SchemaError)
deriving DecidableEq

/-- The kind of an error. -/
def QueryError.kind : QueryError → QueryErrorKind
  | nestedPathOnScalar _ _ _ | schema _ => .resolution
  | _ => .syntactic

/-- The text of an error. -/
def QueryError.message : QueryError → String
  | emptyItem index => s!"empty select field at index {index}"
  | resourceIndexNotNumber expression =>
    s!"expression '{expression}' contains indexed access ('~') but argument isn't a number"
  | emptyNestedPath expression =>
    s!"expression '{expression}' contains nested path (':') but path is empty"
  | duplicateColumn name index => s!"duplicating column name {name} at index {index}"
  | noSelectClause => "could not find a SELECT ... FROM clause in the query"
  | noItems => "query doesn't select any fields"
  | noResource => "could not parse resource from the query"
  | unresolvedParameters names =>
    "the following parameters are used in the query but not specified: " ++
      String.intercalate ", " names
  | nestedPathOnScalar field kind type =>
    s!"field {field} contains nested field accessor (:) but its type is {kind.name} ({type})"
  | schema cause => cause.message

end ReportQuery
