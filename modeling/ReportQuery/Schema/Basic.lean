import ReportQuery.Entries
/-!
# Schemas

A schema is a tree of named types. The row names the resources that a query can
select from; resources and common types are structs with fields and types nested
in them; enums stand in groups. Field types are references, written as texts, and
`ReportQuery.Schema.Resolution` says what they refer to.

Types are kept under a name. A type that is declared without a name of its own
takes the name it is kept under (`StructType.named`); one that has a name keeps
it.
-/

namespace ReportQuery

/-- The types that have no parts. -/
inductive Primitive where
  | string
  | int64
  | int32
  | float
  | double
  | bool
deriving DecidableEq

namespace Primitive

/-- All primitive types. -/
def all : List Primitive := [string, int64, int32, float, double, bool]

/-- The name of a primitive type in a reference. -/
def name : Primitive → String
  | string => "string"
  | int64 => "int64"
  | int32 => "int32"
  | float => "float"
  | double => "double"
  | bool => "bool"

/-- The primitive type of a name. -/
def ofName? (s : String) : Option Primitive := all.find? fun p => p.name = s

/-- A name denotes the primitive type that has it, and no other. -/
theorem ofName?_name (p : Primitive) : ofName? p.name = some p := by
  cases p <;> decide

end Primitive

/-- The declaration of a field. -/
structure Field where
  /-- The reference to the field's type. -/
  type : String
  repeated : Bool
  /-- A label; the label `repeated` makes the field repeated too. -/
  rule : Option String
deriving DecidableEq

/-- A field that holds one value. -/
def Field.single (type : String) : Field := ⟨type, false, none⟩

/-- Whether a field holds a list of values. -/
def Field.isRepeated (f : Field) : Bool := f.repeated || f.rule = some "repeated"

/-- A type with fields: a resource, a common type, or a type nested in one. -/
structure StructType where
  name : String
  fields : Entries Field
  /-- Types that the fields of this one can refer to by their short names. -/
  nested : List (String × StructType)

/-- A type of named values. -/
structure EnumType where
  name : String
  values : List String
deriving DecidableEq

/-- A schema. -/
structure Schema where
  /-- What qualified references start with. -/
  package : String
  /-- The names that a query can select from. -/
  row : Entries Field
  resources : Entries StructType
  common : Entries StructType
  /-- Enums, in groups. -/
  enums : Entries (Entries EnumType)

/-! ## Names of types -/

mutual

/-- Gives a type without a name the name it is kept under, and so for the types
nested in it. -/
def StructType.named (name : String) : StructType → StructType
  | ⟨own, fields, nested⟩ => ⟨if own = "" then name else own, fields, StructType.allNamed nested⟩

/-- Names the types of a list of entries. -/
def StructType.allNamed : List (String × StructType) → List (String × StructType)
  | [] => []
  | (name, type) :: rest => (name, type.named name) :: StructType.allNamed rest

end

/-- Gives an enum without a name the name it is kept under. -/
def EnumType.named (name : String) (e : EnumType) : EnumType :=
  { e with name := if e.name = "" then name else e.name }

/-- Names all types of a schema. -/
def Schema.named (s : Schema) : Schema :=
  { s with
    resources := StructType.allNamed s.resources
    common := StructType.allNamed s.common
    enums := s.enums.map fun group => (group.1, group.2.map fun e => (e.1, e.2.named e.1)) }

/-! ## Building a schema step by step -/

/-- A type without fields. -/
def StructType.empty (name : String) : StructType := ⟨name, [], []⟩

/-- Adds a field, or replaces the field of that name. -/
def StructType.withField (type : StructType) (name : String) (field : Field) : StructType :=
  { type with fields := type.fields.insert name field }

/-- Adds a nested type; it takes the name it is kept under. -/
def StructType.withNested (type : StructType) (name : String) (inner : StructType) : StructType :=
  { type with nested := Entries.insert name { inner with name := name } type.nested }

namespace Schema

/-- A schema without types. -/
def empty (package : String) : Schema := ⟨package, [], [], [], []⟩

/-- What references to resource types start with. -/
def resourcesPrefix (s : Schema) : String := s.package ++ ".resources."

/-- What references to common types start with. -/
def commonPrefix (s : Schema) : String := s.package ++ ".common."

/-- What references to enums start with. -/
def enumsPrefix (s : Schema) : String := s.package ++ ".enums."

/-- Adds a resource type; it takes the name it is kept under. -/
def withResource (s : Schema) (name : String) (type : StructType) : Schema :=
  { s with resources := s.resources.insert name { type with name := name } }

/-- Adds a common type; it takes the name it is kept under. -/
def withCommon (s : Schema) (name : String) (type : StructType) : Schema :=
  { s with common := s.common.insert name { type with name := name } }

/-- Adds an enum to a group. -/
def withEnum (s : Schema) (group name : String) (values : List String) : Schema :=
  let enums := (s.enums.find? group).getD []
  { s with enums := s.enums.insert group (enums.insert name ⟨name, values⟩) }

/-- Makes a resource type selectable under a name. -/
def withResourceRow (s : Schema) (name type : String) : Schema :=
  { s with row := s.row.insert name (.single (s.resourcesPrefix ++ type)) }

/-- Makes a common type selectable under a name. -/
def withCommonRow (s : Schema) (name type : String) : Schema :=
  { s with row := s.row.insert name (.single (s.commonPrefix ++ type)) }

end Schema
end ReportQuery
