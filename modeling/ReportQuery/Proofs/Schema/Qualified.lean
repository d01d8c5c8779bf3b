import Mathlib.Data.List.Basic
import ReportQuery.Proofs.Schema.Walk
/-!
# Two readings of a qualified reference

A qualified reference names a type by the prefix of a registry and the name it is kept under
there. It is read in two places. A row entry is read to the last segment of its reference
(`resource_eq_ok`), the reference of a field to the first one after the prefix, or the second
for an enum (`resolveType_eq_ok`, `resolveType_enum_eq_ok`). So each passes over segments that
are too many, but not over the same ones, and an empty segment counts for a name in a row
entry alone. `qualified_exact_iff` says which references are read exactly, and on which the
two readings agree; those of one segment, or of two for an enum, are among them.
-/

namespace ReportQuery

open Text Outcome

/-! ## Prefixes -/

@[simp] theorem qualified?_self (qualifier rest : String) :
    qualified? qualifier (qualifier ++ rest) = some rest.toList := by
  rw [qualified?, after?_eq_some, String.toList_append]

/-- A package can be taken away on both sides. -/
theorem qualified?_package (package part text : String) :
    qualified? (package ++ part) (package ++ text) = after? part.toList text.toList := by
  rw [qualified?, String.toList_append, String.toList_append]
  induction package.toList with
  | nil => rfl
  | cons c cs ih => rw [List.cons_append, List.cons_append, after?, if_pos rfl, ih]

/-- No primitive type has a dot in its name. -/
theorem Primitive.ofName?_of_dot {name : String} (h : '.' ∈ name.toList) :
    Primitive.ofName? name = none := by
  have hnames : ∀ p ∈ all, '.' ∉ p.name.toList := by decide
  rw [ofName?, List.find?_eq_none]
  intro p hp heq
  rw [decide_eq_true_iff] at heq
  exact hnames p hp (heq ▸ h)

/-- The first segment of a text. -/
def firstSegment (text : String) : String := (segments text).headD ""

/-- The last segment of a text. -/
def lastSegment (text : String) : String := (segments text).getLastD ""

/-- A text without a dot is its only segment. -/
theorem segments_of_not_dot {text : String} (h : '.' ∉ text.toList) : segments text = [text] := by
  rw [segments, cells_of_not_mem h, List.map_singleton, String.ofList_toList]

/-- The registries of types with fields. -/
inductive Registry where
  | resources
  | common

namespace Registry

/-- What follows the package in the references to a registry. -/
def part : Registry → String
  | resources => ".resources."
  | common => ".common."

/-- What the references to the types of a registry start with. -/
def start (s : Schema) : Registry → String
  | resources => s.resourcesPrefix
  | common => s.commonPrefix

/-- The types of a registry, by name. -/
def types (s : Schema) : Registry → Entries StructType
  | resources => s.resources
  | common => s.common

/-- A type of a registry, as what a reference refers to. -/
def typeRef : Registry → StructType → TypeRef
  | resources => .resource
  | common => .struct

variable {s : Schema} {k : Registry} {struct struct' : StructType} {rest : String}

theorem typeRef_inj : k.typeRef struct = k.typeRef struct' ↔ struct = struct' := by
  cases k <;> simp [typeRef]

theorem start_eq (s : Schema) (k : Registry) : k.start s = s.package ++ k.part := by
  cases k <;> rfl

theorem dot_mem_start (s : Schema) (k : Registry) (rest : String) :
    '.' ∈ (k.start s ++ rest).toList := by
  have hdot : '.' ∈ k.part.toList := by cases k <;> decide
  simp [start_eq, hdot]

/-- A prefix ends with a dot. -/
theorem exists_start_eq (s : Schema) (k : Registry) : ∃ front, k.start s = front ++ "." := by
  have hpart : ∃ front, k.part = front ++ "." := by
    cases k with
    | resources => exact ⟨".resources", rfl⟩
    | common => exact ⟨".common", rfl⟩
  obtain ⟨front, hfront⟩ := hpart
  exact ⟨s.package ++ front, by rw [start_eq, hfront, String.append_assoc]⟩

/-- No reference to a registry is one to an enum. -/
theorem qualified?_enums : qualified? s.enumsPrefix (k.start s ++ rest) = none := by
  rw [start_eq, Schema.enumsPrefix, String.append_assoc, qualified?_package]
  cases k <;> simp [part, after?]

end Registry

namespace Schema

variable {s : Schema} {scope struct : StructType} {k : Registry} {rest name : String}
variable {field : Field} {type : TypeRef}

/-! ## What is read -/

@[simp] theorem qualified?_common_resources :
    qualified? s.commonPrefix (s.resourcesPrefix ++ rest) = none := by
  rw [commonPrefix, resourcesPrefix, String.append_assoc, qualified?_package]
  simp [after?]

@[simp] theorem qualified?_resources_common :
    qualified? s.resourcesPrefix (s.commonPrefix ++ rest) = none := by
  rw [commonPrefix, resourcesPrefix, String.append_assoc, qualified?_package]
  simp [after?]

theorem lastSegment_start (s : Schema) (k : Registry) (rest : String) :
    (segments (k.start s ++ rest)).getLast?.getD (k.start s ++ rest) = lastSegment rest := by
  obtain ⟨front, hfront⟩ := k.exists_start_eq s
  rw [hfront, segments_append_dot, List.getLast?_append,
    List.getLast?_eq_some_getLast (segments_ne_nil rest), Option.some_or, Option.getD_some,
    lastSegment, List.getLastD_eq_getLast?, List.getLast?_eq_some_getLast (segments_ne_nil rest),
    Option.getD_some]

/-- **A row entry is read to its last segment.** -/
theorem resource_eq_ok (hfield : s.row.find? name = some field)
    (htype : field.type = k.start s ++ rest) :
    s.resource name = .ok struct ↔ (k.types s).find? (lastSegment rest) = some struct := by
  have hfound : (if (qualified? s.resourcesPrefix field.type).isSome then
        s.resources.find? (lastSegment rest)
      else if (qualified? s.commonPrefix field.type).isSome then
        s.common.find? (lastSegment rest) else none) = (k.types s).find? (lastSegment rest) := by
    rw [htype]
    cases k with
    | resources => simp [Registry.start, Registry.types]
    | common => simp [Registry.start, Registry.types]
  simp only [resource, hfield, htype, lastSegment_start]
  rw [← htype, hfound]
  split
  · next found hsome => simp [hsome]
  · next hnone => simp [hnone]

/-- **The reference of a field is read to its first segment** after the prefix of a registry. -/
theorem resolveType_eq_ok : s.resolveType scope (k.start s ++ rest) = .ok type ↔
    ∃ struct, type = k.typeRef struct ∧ firstSegment rest ≠ "" ∧
      (k.types s).find? (firstSegment rest) = some struct := by
  have hread : s.resolveType scope (k.start s ++ rest) =
      (qualifiedStruct (k.types s) scope (k.start s ++ rest) rest.toList).map k.typeRef := by
    rw [resolveType, Primitive.ofName?_of_dot (k.dot_mem_start s rest), Registry.qualified?_enums]
    cases k with
    | resources => simp [Registry.start, Registry.types, Registry.typeRef]
    | common => simp [Registry.start, Registry.types, Registry.typeRef]
  obtain ⟨first, others, hrest⟩ := List.exists_cons_of_ne_nil (segments_ne_nil rest)
  rw [hread, qualifiedStruct, String.ofList_toList, firstSegment, hrest, List.headD_cons, map_eq_ok]
  dsimp only
  split
  · next hempty => simp [hempty]
  · next hne =>
    cases hfound : (k.types s).find? first with
    | none => simp
    | some found => simp [hne, eq_comm]

/-- The enum of a group and a name that segments start with. -/
def enumAt? (s : Schema) : List String → Option EnumType
  | group :: name :: _ => (s.enums.find? group).bind (Entries.find? name)
  | _ => none

/-- **The reference to an enum is read to its second segment** after the prefix. -/
theorem resolveType_enum_eq_ok : s.resolveType scope (s.enumsPrefix ++ rest) = .ok type ↔
    ∃ e, type = .enum e ∧ s.enumAt? (segments rest) = some e := by
  have hdot : '.' ∈ (s.enumsPrefix ++ rest).toList := by simp [enumsPrefix]
  rw [resolveType, Primitive.ofName?_of_dot hdot]
  simp only [qualified?_self, qualifiedEnum, String.ofList_toList]
  rcases segments rest with _ | ⟨group, _ | ⟨name, others⟩⟩
  · simp [enumAt?]
  · simp [enumAt?]
  · dsimp only [enumAt?]
    cases (s.enums.find? group).bind (Entries.find? name) with
    | none => simp
    | some e => simp [eq_comm]

/-! ## Exact readings -/

/-- A reference to a registry is read exactly in a field: it refers to nothing but the type
that is kept under all that follows the prefix. -/
def ReadsExactly (s : Schema) (scope : StructType) (k : Registry) (rest : String) : Prop :=
  ∀ type, s.resolveType scope (k.start s ++ rest) = .ok type →
    ∃ struct, type = k.typeRef struct ∧ (k.types s).find? rest = some struct

/-- A reference to an enum is read exactly: it refers to nothing but the enum of a group and a
name that are its two segments. -/
def ReadsEnumExactly (s : Schema) (scope : StructType) (rest : String) : Prop :=
  ∀ type, s.resolveType scope (s.enumsPrefix ++ rest) = .ok type →
    ∃ group name e, segments rest = [group, name] ∧ type = .enum e ∧
      (s.enums.find? group).bind (Entries.find? name) = some e

/-- A row entry and a field read a reference to a registry alike: both fail, or they lead to the
same type. -/
def ReadingsAgree (s : Schema) (scope : StructType) (name : String) (k : Registry)
    (rest : String) : Prop :=
  ∀ struct, s.resource name = .ok struct ↔
    s.resolveType scope (k.start s ++ rest) = .ok (k.typeRef struct)

/-- A field reads a reference exactly when the segments that it passes over make no difference. -/
theorem readsExactly_iff : ReadsExactly s scope k rest ↔
    (firstSegment rest ≠ "" → (k.types s).find? (firstSegment rest) = none ∨
      (k.types s).find? rest = (k.types s).find? (firstSegment rest)) := by
  constructor
  · intro h hne
    cases hfound : (k.types s).find? (firstSegment rest) with
    | none => exact .inl rfl
    | some struct =>
      obtain ⟨struct', heq, hwhole⟩ := h _ (resolveType_eq_ok.2 ⟨struct, rfl, hne, hfound⟩)
      obtain rfl := Registry.typeRef_inj.1 heq
      exact .inr hwhole
  · intro h type htype
    obtain ⟨struct, rfl, hne, hfound⟩ := resolveType_eq_ok.1 htype
    rcases h hne with hnone | hwhole
    · rw [hfound] at hnone
      cases hnone
    · exact ⟨struct, rfl, hwhole.trans hfound⟩

theorem readsEnumExactly_iff : ReadsEnumExactly s scope rest ↔
    s.enumAt? (segments rest) = none ∨ (segments rest).length = 2 := by
  constructor
  · intro h
    cases hfound : s.enumAt? (segments rest) with
    | none => exact .inl rfl
    | some e =>
      obtain ⟨group, name, _, hrest, -, -⟩ := h _ (resolveType_enum_eq_ok.2 ⟨e, rfl, hfound⟩)
      rw [hrest]
      exact .inr rfl
  · intro h type htype
    obtain ⟨e, rfl, hfound⟩ := resolveType_enum_eq_ok.1 htype
    rcases h with hnone | hlength
    · rw [hfound] at hnone
      cases hnone
    · obtain ⟨group, name, hrest⟩ := List.length_eq_two.1 hlength
      rw [hrest] at hfound
      exact ⟨group, name, e, hrest, rfl, hfound⟩

/-- The two readings agree when the first and the last segment name the same type. An empty
first segment names none in a field. -/
theorem readingsAgree_iff (hfield : s.row.find? name = some field)
    (htype : field.type = k.start s ++ rest) : ReadingsAgree s scope name k rest ↔
      (k.types s).find? (lastSegment rest) =
        if firstSegment rest = "" then none else (k.types s).find? (firstSegment rest) := by
  have hlast (struct : StructType) : s.resource name = .ok struct ↔
      (k.types s).find? (lastSegment rest) = some struct := resource_eq_ok hfield htype
  have hfirst (struct : StructType) :
      s.resolveType scope (k.start s ++ rest) = .ok (k.typeRef struct) ↔
        (if firstSegment rest = "" then none else (k.types s).find? (firstSegment rest)) =
          some struct := by
    rw [resolveType_eq_ok]
    simp [Registry.typeRef_inj]
  simp only [ReadingsAgree, hlast, hfirst]
  exact ⟨Option.ext, fun h struct => by rw [h]⟩

/-- **How exactly qualified references are read.** In a field, a reference to a registry refers to
nothing but the type kept under what follows the prefix just if the first segment is empty
or no type's name, or names the type that the whole does; a reference to an enum is read
exactly just if it has two segments or its first two name no enum. A row entry and a field read a
reference alike just if its first and its last segment name the same type, where an empty
first one names none. A reference of one segment, or of two to an enum, refers to just what
is kept under these names, and is read alike in both places. -/
theorem qualified_exact_iff (s : Schema) (scope : StructType) :
    (∀ k rest, ReadsExactly s scope k rest ↔
      (firstSegment rest ≠ "" → (k.types s).find? (firstSegment rest) = none ∨
        (k.types s).find? rest = (k.types s).find? (firstSegment rest))) ∧
    (∀ rest, ReadsEnumExactly s scope rest ↔
      s.enumAt? (segments rest) = none ∨ (segments rest).length = 2) ∧
    (∀ name field k rest, s.row.find? name = some field → field.type = k.start s ++ rest →
      (ReadingsAgree s scope name k rest ↔ (k.types s).find? (lastSegment rest) =
        if firstSegment rest = "" then none else (k.types s).find? (firstSegment rest))) ∧
    (∀ k rest, rest ≠ "" → '.' ∉ rest.toList →
      (∀ struct, s.resolveType scope (k.start s ++ rest) = .ok (k.typeRef struct) ↔
        (k.types s).find? rest = some struct) ∧
      ReadsExactly s scope k rest ∧
      ∀ name field, s.row.find? name = some field → field.type = k.start s ++ rest →
        ReadingsAgree s scope name k rest) ∧
    (∀ group name, '.' ∉ group.toList → '.' ∉ name.toList →
      (∀ e, s.resolveType scope (s.enumsPrefix ++ (group ++ "." ++ name)) = .ok (.enum e) ↔
        (s.enums.find? group).bind (Entries.find? name) = some e) ∧
      ReadsEnumExactly s scope (group ++ "." ++ name)) := by
  refine ⟨fun _ _ => readsExactly_iff, fun _ => readsEnumExactly_iff,
    fun _ _ _ _ => readingsAgree_iff, fun k rest hne hdot => ?_, fun group name hgroup hname => ?_⟩
  · have hsegments : segments rest = [rest] := segments_of_not_dot hdot
    have hfirst : firstSegment rest = rest := by rw [firstSegment, hsegments, List.headD_cons]
    have hlast : lastSegment rest = rest := by rw [lastSegment, hsegments]; rfl
    refine ⟨fun struct => ?_, readsExactly_iff.2 fun _ => ?_, fun name field hfield htype => ?_⟩
    · rw [resolveType_eq_ok, hfirst]
      simp [Registry.typeRef_inj, hne]
    · rw [hfirst]
      exact .inr rfl
    · rw [readingsAgree_iff hfield htype, hfirst, hlast, if_neg hne]
  · have hsegments : segments (group ++ "." ++ name) = [group, name] := by
      rw [segments_append_dot, segments_of_not_dot hgroup, segments_of_not_dot hname]
      rfl
    refine ⟨fun e => ?_, readsEnumExactly_iff.2 (.inr (by rw [hsegments]; rfl))⟩
    rw [resolveType_enum_eq_ok, hsegments]
    simp [enumAt?]

/-- A schema with a row entry whose reference has a segment too many. -/
def overlong : Schema :=
  (Schema.sample.withCommon "Device" (.empty "")).withCommonRow "far" "Network.Device"

/-- A row entry, a field and an enum whose references have the segments they should have. -/
theorem qualified_exact_iff_sample :
    ReadingsAgree sample (.empty "") "campaign" .resources "Campaign" ∧
      ReadsExactly sample (.empty "") .common "Network" ∧
      ReadsEnumExactly sample (.empty "") "StatusEnum.Status" := by
  obtain ⟨-, henum, -, hregular, -⟩ := qualified_exact_iff sample (.empty "")
  exact ⟨(hregular .resources "Campaign" (by decide) (by decide)).2.2 "campaign" _ rfl rfl,
    (hregular .common "Network" (by decide) (by decide)).2.1, (henum _).2 (.inr (by decide))⟩

/-- A segment too many is passed over at the end in a field, and at the start in a row entry, so
that one reference stands for two types; and so it is at the end of a reference to an enum. -/
theorem qualified_exact_iff_fails :
    (overlong.resolveType (.empty "") "ads.common.Network.Device").toOption.map TypeRef.typeName =
        some "Network" ∧
      (overlong.resource "far").toOption.map StructType.name = some "Device" ∧
      ¬ ReadsExactly overlong (.empty "") .common "Network.Device" ∧
      ¬ ReadingsAgree overlong (.empty "") "far" .common "Network.Device" ∧
      ¬ ReadsEnumExactly overlong (.empty "") "StatusEnum.Status.On" := by
  have hnetwork : (overlong.common.find? (firstSegment "Network.Device")).map StructType.name =
      some "Network" := by decide
  refine ⟨by decide, by decide, fun h => ?_, fun h => ?_, fun h => ?_⟩
  · rcases readsExactly_iff.1 h (by decide) with hnone | hwhole
    · cases hnetwork.symm.trans (congrArg _ hnone)
    · cases hnetwork.symm.trans (congrArg _ hwhole.symm)
  · have hsame := (readingsAgree_iff rfl rfl).1 h
    rw [if_neg (by decide)] at hsame
    exact absurd (congrArg (Option.map StructType.name) hsame) (by decide)
  · exact absurd (readsEnumExactly_iff.1 h) (by decide)

end Schema
end ReportQuery
