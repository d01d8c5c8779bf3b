import ReportQuery.Proofs.Entries
import ReportQuery.Schema.Basic
/-!
# Names that are filled in

A type without a name takes the name it is kept under, at every depth (`typeAt?_allNamed`).
A type that has a name keeps it, so filling in names a second time changes nothing
(`Schema.named_named`).
-/

namespace ReportQuery

open Entries (find?)

/-- A name that has been filled in is not filled in again. -/
theorem filled_twice (own key : String) :
    (if (if own = "" then key else own) = "" then key else if own = "" then key else own) =
      if own = "" then key else own := by
  by_cases hown : own = ""
  · rw [if_pos hown, ite_self]
  · rw [if_neg hown, if_neg hown]

namespace StructType

variable {types : Entries StructType}

/-- What holds of a type when it holds of the types nested in it, holds of every one. -/
@[elab_as_elim]
theorem induction {P : StructType → Prop}
    (step : ∀ name fields nested, (∀ entry ∈ nested, P entry.2) → P ⟨name, fields, nested⟩) :
    (type : StructType) → P type
  | ⟨name, fields, nested⟩ => step name fields nested fun entry _ => induction step entry.2
decreasing_by
  have hlt := Entries.sizeOf_lt_of_mem ‹entry ∈ nested›
  rw [mk.sizeOf_spec]
  omega

theorem allNamed_eq (types : Entries StructType) :
    allNamed types = types.map fun entry => (entry.1, entry.2.named entry.1) := by
  induction types with
  | nil => rw [allNamed, List.map_nil]
  | cons entry rest ih => rw [allNamed, ih, List.map_cons]

/-- No type comes to a map, or leaves it. -/
theorem names_allNamed (types : Entries StructType) :
    Entries.names (allNamed types) = Entries.names types := by
  simp [allNamed_eq, Entries.names, Function.comp_def]

theorem find?_allNamed (types : Entries StructType) (key : String) :
    find? key (allNamed types) = (find? key types).map (named key) := by
  rw [allNamed_eq]
  exact Entries.find?_map fun key (type : StructType) => type.named key

@[simp] theorem named_name (type : StructType) (key : String) :
    (type.named key).name = if type.name = "" then key else type.name := by
  obtain ⟨own, fields, nested⟩ := type
  rw [named]

@[simp] theorem named_fields (type : StructType) (key : String) :
    (type.named key).fields = type.fields := by
  obtain ⟨own, fields, nested⟩ := type
  rw [named]

@[simp] theorem named_nested (type : StructType) (key : String) :
    (type.named key).nested = allNamed type.nested := by
  obtain ⟨own, fields, nested⟩ := type
  rw [named]

theorem allNamed_allNamed_of_forall (h : ∀ entry ∈ types,
    (entry.2.named entry.1).named entry.1 = entry.2.named entry.1) :
    allNamed (allNamed types) = allNamed types := by
  rw [allNamed_eq types, allNamed_eq, List.map_map]
  refine List.map_congr_left fun entry hentry => ?_
  rw [Function.comp, h entry hentry]

/-- **A type is named once.** -/
theorem named_named (type : StructType) (key : String) :
    (type.named key).named key = type.named key := by
  induction type using StructType.induction generalizing key with
  | step name fields nested ih =>
    have hnested : allNamed (allNamed nested) = allNamed nested :=
      allNamed_allNamed_of_forall fun entry hentry => ih entry hentry entry.1
    rw [named, named, hnested, filled_twice]

theorem allNamed_allNamed (types : Entries StructType) :
    allNamed (allNamed types) = allNamed types :=
  allNamed_allNamed_of_forall fun entry _ => named_named entry.2 entry.1

/-- The type that is kept under a key, nested in the types of a path of keys, of which the
first is one of the map. -/
def typeAt? : (path : List String) → (key : String) → Entries StructType → Option StructType
  | [], key, types => find? key types
  | outer :: path, key, types =>
    (find? outer types).bind fun type => typeAt? path key type.nested

/-- **Names reach every depth.** -/
theorem typeAt?_allNamed (path : List String) (key : String) (types : Entries StructType) :
    typeAt? path key (allNamed types) = (typeAt? path key types).map (named key) := by
  induction path generalizing types with
  | nil => exact find?_allNamed types key
  | cons outer path ih =>
    rw [typeAt?, typeAt?, find?_allNamed]
    cases find? outer types with
    | none => rfl
    | some type => rw [Option.map_some, Option.bind_some, Option.bind_some, named_nested, ih]

end StructType

/-! ## Names of a schema -/

theorem EnumType.named_named (e : EnumType) (key : String) :
    (e.named key).named key = e.named key := by
  rw [named, named, filled_twice]

namespace Schema

/-- Every type of a map, and every type nested in one of them at any depth, has the name it
had, or the key it is kept under if it had none. Its fields stay. -/
def TypesFilled (types filled : Entries StructType) : Prop :=
  ∀ path key, (StructType.typeAt? path key filled).map (fun type => (type.name, type.fields)) =
    (StructType.typeAt? path key types).map fun type =>
      (if type.name = "" then key else type.name, type.fields)

/-- A schema with the names filled in, and nothing else changed. -/
structure NamesFilled (s filled : Schema) : Prop where
  package : filled.package = s.package
  row : filled.row = s.row
  resources : TypesFilled s.resources filled.resources
  common : TypesFilled s.common filled.common
  enums : ∀ group key, (find? group filled.enums).bind (find? key) =
    ((find? group s.enums).bind (find? key)).map fun e =>
      ⟨if e.name = "" then key else e.name, e.values⟩

theorem typesFilled_allNamed (types : Entries StructType) :
    TypesFilled types (StructType.allNamed types) := by
  intro path key
  rw [StructType.typeAt?_allNamed, Option.map_map]
  refine congrArg (fun f => Option.map f _) (funext fun type => ?_)
  rw [Function.comp, StructType.named_name, StructType.named_fields]

/-- **Names are filled in**: those of types and enums that have none, at every depth. -/
theorem namesFilled_named (s : Schema) : NamesFilled s s.named where
  package := rfl
  row := rfl
  resources := typesFilled_allNamed s.resources
  common := typesFilled_allNamed s.common
  enums group key := by
    have hgroup := @Entries.find?_map _ _ group s.enums fun _ enums =>
      enums.map fun e => (e.1, e.2.named e.1)
    rw [named, hgroup]
    cases find? group s.enums with
    | none => rfl
    | some enums => exact Entries.find?_map fun key (e : EnumType) => e.named key

/-- **Filling in names again changes nothing.** -/
theorem named_named (s : Schema) : s.named.named = s.named := by
  simp only [named, StructType.allNamed_allNamed, List.map_map, Function.comp_def,
    EnumType.named_named]

end Schema
end ReportQuery
