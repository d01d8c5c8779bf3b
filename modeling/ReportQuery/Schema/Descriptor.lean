import ReportQuery.Json.Reader
import ReportQuery.Schema.Basic
import ReportQuery.Schema.Error
/-!
# Schema descriptors

The form of a schema as a data value. A record is an object of its parts by name,
or an array of its parts in order; parts may be missing if they have a default,
unknown names are passed over, and no known name is given twice. In a map from
names, of two entries of one name the later counts.
-/

namespace ReportQuery

namespace Json

/-- The text of a value. -/
def text? : Json → Option String
  | string s => some s
  | _ => none

/-- The truth value of a value. -/
def bool? : Json → Option Bool
  | bool b => some b
  | _ => none

/-- The value of a part by name: `none` if it is given twice, `some none` if it is
missing. -/
def part? (name : String) (members : List (String × Json)) : Option (Option Json) :=
  match members.filter fun m => m.1 = name with
  | [] => some none
  | [m] => some (some m.2)
  | _ => none

/-- Reads a part that has a default. -/
def optional {α : Type} (default : α) (read : Json → Option α) : Option Json → Option α
  | none => some default
  | some j => read j

/-- Reads the entries of a map, each value by `read`. -/
def entries? {α : Type} (read : Json → Option α) (sorted : Entries α) :
    List (String × Json) → Option (Entries α)
  | [] => some sorted
  | (name, j) :: rest => do entries? read (sorted.insert name (← read j)) rest

/-- Reads a map from names. -/
def map? {α : Type} (read : Json → Option α) : Json → Option (Entries α)
  | object members => entries? read [] members
  | _ => none

/-- Reads a list of texts. -/
def texts? : Json → Option (List String)
  | array items => items.mapM text?
  | _ => none

end Json

open Json

/-- Reads a label, which may be null. -/
def rule? : Json → Option (Option String)
  | .null => some none
  | .string s => some (some s)
  | _ => none

/-- Reads the declaration of a field. -/
def Field.ofJson? : Json → Option Field
  | .object members => do
    let type ← text? (← ← part? "type" members)
    let repeated ← optional false bool? (← part? "repeated" members)
    let rule ← optional none rule? (← part? "rule" members)
    return ⟨type, repeated, rule⟩
  | .array (type :: rest) => do
    let type ← text? type
    match rest with
    | [] => return ⟨type, false, none⟩
    | [repeated] => return ⟨type, ← bool? repeated, none⟩
    | [repeated, rule] => return ⟨type, ← bool? repeated, ← rule? rule⟩
    | _ => none
  | _ => none

/-- Reads an enum. -/
def EnumType.ofJson? : Json → Option EnumType
  | .object members => do
    let name ← optional "" text? (← part? "name" members)
    let values ← optional [] texts? (← part? "values" members)
    return ⟨name, values⟩
  | .array [] => some ⟨"", []⟩
  | .array [name] => do return ⟨← text? name, []⟩
  | .array [name, values] => do return ⟨← text? name, ← texts? values⟩
  | _ => none

mutual

/-- Reads a type with fields. -/
def StructType.ofJson? : Json → Option StructType
  | .object members => do
    let name ← optional "" text? (← part? "name" members)
    let fields ← optional [] (map? Field.ofJson?) (← part? "fields" members)
    let _ ← part? "nested" members
    return ⟨name, fields, ← StructType.nestedOf? members⟩
  | .array [] => some ⟨"", [], []⟩
  | .array [name] => do return ⟨← text? name, [], []⟩
  | .array [name, fields] => do return ⟨← text? name, ← map? Field.ofJson? fields, []⟩
  | .array [name, fields, nested] => do
    return ⟨← text? name, ← map? Field.ofJson? fields, ← StructType.mapOf? nested⟩
  | _ => none

/-- Reads the nested types among the parts of a type. -/
def StructType.nestedOf? : List (String × Json) → Option (List (String × StructType))
  | [] => some []
  | (name, j) :: rest => if name = "nested" then StructType.mapOf? j else StructType.nestedOf? rest

/-- Reads a map from names to types. -/
def StructType.mapOf? : Json → Option (List (String × StructType))
  | .object members => StructType.entriesOf? [] members
  | _ => none

/-- Reads the entries of a map from names to types. -/
def StructType.entriesOf? (sorted : List (String × StructType)) :
    List (String × Json) → Option (List (String × StructType))
  | [] => some sorted
  | (name, j) :: rest => do
    let type ← StructType.ofJson? j
    StructType.entriesOf? (Entries.insert name type sorted) rest

end

/-- Reads a schema, with its types as they are named in the descriptor. -/
def Schema.unnamed? : Json → Option Schema
  | .object members => do
    let package ← text? (← ← part? "namespace" members)
    let row ← optional [] (map? Field.ofJson?) (← part? "row" members)
    let resources ← optional [] StructType.mapOf? (← part? "resources" members)
    let common ← optional [] StructType.mapOf? (← part? "common" members)
    let enums ← optional [] (map? (map? EnumType.ofJson?)) (← part? "enums" members)
    return ⟨package, row, resources, common, enums⟩
  | .array (package :: parts) => do
    if 4 < parts.length then none
    let package ← text? package
    let row ← optional [] (map? Field.ofJson?) parts[0]?
    let resources ← optional [] StructType.mapOf? parts[1]?
    let common ← optional [] StructType.mapOf? parts[2]?
    let enums ← optional [] (map? (map? EnumType.ofJson?)) parts[3]?
    return ⟨package, row, resources, common, enums⟩
  | _ => none

/-- The schema of a descriptor; types without a name take the name they are kept
under. -/
def Schema.ofJson? (j : Json) : Option Schema := (Schema.unnamed? j).map Schema.named

/-- Reads a schema from the text of a descriptor. Values under unknown names need only
have the form of a value. -/
def Schema.read (text : List Char) : Except SchemaError Schema :=
  match (Json.skim? text).bind Schema.ofJson? with
  | some s => .ok s
  | none => .error .malformed

/-! ## Writing descriptors -/

/-- The descriptor of a field: the label and the mark are left out where they say
nothing. -/
def Field.toJson (f : Field) : Json :=
  .object <| [("type", .string f.type)] ++
    (if f.repeated then [("repeated", .bool true)] else []) ++
    (match f.rule with
      | none => []
      | some r => [("rule", .string r)])

/-- The descriptor of an enum. -/
def EnumType.toJson (e : EnumType) : Json :=
  .object [("name", .string e.name), ("values", .array (e.values.map .string))]

mutual

/-- The descriptor of a type; nested types are left out where there are none. -/
def StructType.toJson : StructType → Json
  | ⟨name, fields, nested⟩ =>
    .object <| [("name", .string name), ("fields", .object (fields.map fun f => (f.1, f.2.toJson)))]
      ++ (if nested.isEmpty then [] else [("nested", .object (StructType.entriesToJson nested))])

/-- The descriptors of types by name. -/
def StructType.entriesToJson : List (String × StructType) → List (String × Json)
  | [] => []
  | (name, type) :: rest => (name, type.toJson) :: StructType.entriesToJson rest

end

/-- The descriptor of a schema. -/
def Schema.toJson (s : Schema) : Json :=
  .object [
    ("namespace", .string s.package),
    ("row", .object (s.row.map fun f => (f.1, f.2.toJson))),
    ("resources", .object (StructType.entriesToJson s.resources)),
    ("common", .object (StructType.entriesToJson s.common)),
    ("enums", .object (s.enums.map fun group =>
      (group.1, .object (group.2.map fun e => (e.1, e.2.toJson)))))]

end ReportQuery
