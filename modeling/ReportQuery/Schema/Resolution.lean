import ReportQuery.Schema.Basic
import ReportQuery.Schema.Error
import ReportQuery.Text.Basic
/-!
# Resolving references

A reference is a primitive name, a qualified name of an enum, a common type or a
resource type, or a short name. A short name is looked up among the types nested
in the struct where the reference stands, then among the resource types, then
among the common types.

A field path is walked segment by segment: every segment but the last must name a
field that is not repeated and whose type has fields.
-/

namespace ReportQuery

open ReportQuery.Text

/-- What a reference refers to. -/
inductive TypeRef where
  | primitive (p : Primitive)
  | enum (e : EnumType)
  /-- A common type or a nested type. -/
  | struct (s : StructType)
  /-- A resource type. -/
  | resource (s : StructType)

/-- The kinds of types that a column can have. -/
inductive TypeKind where
  | primitive
  | enum
  | struct
deriving DecidableEq

/-- The name of a kind. -/
def TypeKind.name : TypeKind → String
  | primitive => "primitive"
  | enum => "enum"
  | struct => "struct"

namespace TypeRef

/-- The kind of a type. -/
def kind : TypeRef → TypeKind
  | primitive _ => .primitive
  | enum _ => .enum
  | struct _ | resource _ => .struct

/-- The name of a type. -/
def typeName : TypeRef → String
  | primitive p => p.name
  | enum e => e.name
  | struct s | resource s => s.name

/-- The struct, if the type has fields. -/
def fields? : TypeRef → Option StructType
  | struct s | resource s => some s
  | _ => none

end TypeRef

/-- The type of a column. -/
structure FieldType where
  kind : TypeKind
  typeName : String
  repeated : Bool
deriving DecidableEq

/-- Where a field path ends: a type, and whether the field is repeated. -/
structure Resolved where
  type : TypeRef
  repeated : Bool

/-- The column type of the end of a path. -/
def Resolved.fieldType (r : Resolved) : FieldType := ⟨r.type.kind, r.type.typeName, r.repeated⟩

/-- What follows a prefix in a reference. -/
def qualified? (qualifier reference : String) : Option (List Char) :=
  after? qualifier.toList reference.toList

/-- The segments of a dotted text. -/
def segments (dotted : String) : List String := (cells '.' dotted.toList).map String.ofList

/-- A path as a dotted text. -/
def dotted (path : List String) : String := String.ofList (join ['.'] (path.map String.toList))

namespace Schema

/-- The struct that a row entry makes selectable. A qualified reference is read to
its last segment here. -/
def resource (s : Schema) (name : String) : Except SchemaError StructType :=
  match s.row.find? name with
  | none => .error (.unknownResource name)
  | some field =>
    let type := (segments field.type).getLast?.getD field.type
    let found :=
      if (qualified? s.resourcesPrefix field.type).isSome then s.resources.find? type
      else if (qualified? s.commonPrefix field.type).isSome then s.common.find? type
      else none
    match found with
    | some struct => .ok struct
    | none => .error (.unknownResourceType name field.type)

/-- The enum of a qualified reference, after the prefix. Segments after the second
are not looked at. -/
def qualifiedEnum (s : Schema) (reference : String) (rest : List Char) :
    Except SchemaError TypeRef :=
  match segments (String.ofList rest) with
  | group :: name :: _ =>
    match (s.enums.find? group).bind (Entries.find? name) with
    | some e => .ok (.enum e)
    | none => .error (.unknownEnum reference)
  | _ => .error (.invalidReference reference)

/-- The struct of a qualified reference, after the prefix. Segments after the first
are not looked at. -/
def qualifiedStruct (types : Entries StructType) (scope : StructType) (reference : String)
    (rest : List Char) : Except SchemaError StructType :=
  match segments (String.ofList rest) with
  | [] => .error (.invalidReference reference)
  | name :: _ =>
    if name = "" then .error (.invalidReference reference)
    else match types.find? name with
      | some struct => .ok struct
      | none => .error (.unknownType reference scope.name)

/-- The type of a short name where the fields of `scope` stand. -/
def shortName (s : Schema) (scope : StructType) (reference : String) :
    Except SchemaError TypeRef :=
  match Entries.find? reference scope.nested with
  | some struct => .ok (.struct struct)
  | none =>
    match s.resources.find? reference with
    | some struct => .ok (.resource struct)
    | none =>
      match s.common.find? reference with
      | some struct => .ok (.struct struct)
      | none => .error (.unknownType reference scope.name)

/-- The type that a reference in a field of `scope` refers to. -/
def resolveType (s : Schema) (scope : StructType) (reference : String) :
    Except SchemaError TypeRef :=
  match Primitive.ofName? reference with
  | some p => .ok (.primitive p)
  | none =>
    match qualified? s.enumsPrefix reference with
    | some rest => s.qualifiedEnum reference rest
    | none =>
      match qualified? s.commonPrefix reference with
      | some rest => (qualifiedStruct s.common scope reference rest).map .struct
      | none =>
        match qualified? s.resourcesPrefix reference with
        | some rest => (qualifiedStruct s.resources scope reference rest).map .resource
        | none => s.shortName scope reference

/-- The end of a path that has one segment left. -/
def lastStep (s : Schema) (path : String) (current : StructType) (segment : String) :
    Except SchemaError Resolved :=
  match current.fields.find? segment with
  | none => .error (.unknownField current.name segment path)
  | some field => (s.resolveType current field.type).map fun type => ⟨type, field.isRepeated⟩

/-- The struct that a segment with segments after it leads to. -/
def innerStep (s : Schema) (path : String) (current : StructType) (segment : String) :
    Except SchemaError StructType :=
  match current.fields.find? segment with
  | none => .error (.unknownField current.name segment path)
  | some field =>
    if field.isRepeated then .error (.repeatedInMiddle segment path)
    else match s.resolveType current field.type with
      | .error e => .error e
      | .ok (.primitive p) => .error (.primitiveInMiddle segment path p.name)
      | .ok (.enum e) => .error (.enumInMiddle segment path e.name)
      | .ok (.struct struct) | .ok (.resource struct) => .ok struct

/-- Walks the remaining segments of a path. -/
def walk (s : Schema) (path : String) : StructType → List String → Except SchemaError Resolved
  | current, [] => .error (.emptyPath current.name)
  | current, [segment] => s.lastStep path current segment
  | current, segment :: rest => do s.walk path (← s.innerStep path current segment) rest

/-- The type at the end of a field path that starts at `root`. -/
def fieldType (s : Schema) (root : StructType) (path : List String) :
    Except SchemaError Resolved :=
  s.walk (dotted path) root path

end Schema
end ReportQuery
