/-!
# Causes of schema errors
-/

namespace ReportQuery

/-- Why a descriptor does not load, or a reference does not resolve. -/
inductive SchemaError where
  /-- The row has no entry of this name. -/
  | unknownResource (name : String)
  /-- The row entry refers to no resource type and no common type. -/
  | unknownResourceType (resource type : String)
  /-- A type on the path has no such field. -/
  | unknownField (type field path : String)
  /-- A reference names no type that is visible where it stands. -/
  | unknownType (reference scope : String)
  /-- A qualified reference names no enum. -/
  | unknownEnum (reference : String)
  /-- A qualified reference lacks a name. -/
  | invalidReference (reference : String)
  /-- A repeated field has segments after it. -/
  | repeatedInMiddle (field path : String)
  /-- A field of a primitive type has segments after it. -/
  | primitiveInMiddle (field path type : String)
  /-- A field of an enum type has segments after it. -/
  | enumInMiddle (field path type : String)
  /-- A path has no segments. -/
  | emptyPath (resource : String)
  /-- A descriptor file cannot be read. -/
  | unreadable (file reason : String)
  /-- A descriptor does not have the form of a schema. -/
  | malformed
deriving DecidableEq

/-- The text of an error. The details of a malformed descriptor are left out. -/
def SchemaError.message : SchemaError → String
  | unknownResource name => s!"could not find resource '{name}' in schema"
  | unknownResourceType resource type => s!"could not find type '{type}' of resource '{resource}'"
  | unknownField type field path => s!"type '{type}' has no field '{field}' (path '{path}')"
  | unknownType reference scope =>
    s!"could not find a type for '{reference}' (referenced from '{scope}')"
  | unknownEnum reference => s!"could not find enum '{reference}'"
  | invalidReference reference => s!"could not parse type reference '{reference}'"
  | repeatedInMiddle field path => s!"repeated field '{field}' in the middle of path '{path}'"
  | primitiveInMiddle field path type =>
    s!"field '{field}' in path '{path}' has primitive type {type}"
  | enumInMiddle field path type => s!"field '{field}' in path '{path}' has enum type {type}"
  | emptyPath resource => s!"field path for '{resource}' must name at least one field"
  | unreadable file reason => s!"failed to read schema file {file}: {reason}"
  | malformed => "failed to parse schema"

end ReportQuery
