import ReportQuery.Proofs.Schema.Descriptor
import ReportQuery.Proofs.Schema.Naming
/-!
# Schemas in order

All maps of a schema have their names in ascending order, at every depth (`Schema.Ordered`).
No step of the building of a schema leaves this order (`Step.ordered`), and what is read from a
descriptor has it whatever the order there (`ordered_of_unnamed?`). Filling in names does not
touch it (`Ordered.named`).
-/

namespace ReportQuery

open Json Entries

variable {name key : String} {type : StructType} {types : Entries StructType} {j : Json}

namespace StructType

/-- The fields of a type and the types nested in it stand in ascending order, and so at every
depth. -/
inductive Ordered : StructType → Prop
  | mk {type : StructType} : type.fields.Ascending → Ascending type.nested →
      (∀ entry ∈ type.nested, Ordered entry.2) → Ordered type

/-- The types of a map are in order, and so is the map. -/
structure AllOrdered (types : Entries StructType) : Prop where
  ascending : types.Ascending
  ordered : ∀ entry ∈ types, entry.2.Ordered

theorem ordered_iff :
    type.Ordered ↔ type.fields.Ascending ∧ AllOrdered type.nested := by
  constructor
  · rintro ⟨hfields, hnested, hordered⟩
    exact ⟨hfields, hnested, hordered⟩
  · rintro ⟨hfields, hnested, hordered⟩
    exact .mk hfields hnested hordered

theorem allOrdered_nil : AllOrdered [] := ⟨ascending_nil, List.forall_mem_nil _⟩

theorem AllOrdered.insert (h : AllOrdered types) (htype : type.Ordered) :
    AllOrdered (types.insert name type) :=
  ⟨h.ascending.insert, forall_mem_insert h.ordered htype⟩

/-- The name of a type has no part in its order. -/
theorem Ordered.withName (h : type.Ordered) : Ordered { type with name := name } := by
  obtain ⟨hfields, hnested, hordered⟩ := h
  exact .mk hfields hnested hordered

/-! ## Building types -/

theorem ordered_empty (name : String) : (empty name).Ordered :=
  .mk ascending_nil ascending_nil (List.forall_mem_nil _)

theorem Ordered.withField {field : Field} (h : type.Ordered) :
    (type.withField name field).Ordered := by
  obtain ⟨hfields, hnested⟩ := ordered_iff.1 h
  exact ordered_iff.2 ⟨hfields.insert, hnested⟩

theorem Ordered.withNested {inner : StructType} (h : type.Ordered) (hinner : inner.Ordered) :
    (type.withNested name inner).Ordered := by
  obtain ⟨hfields, hnested⟩ := ordered_iff.1 h
  exact ordered_iff.2 ⟨hfields, hnested.insert hinner.withName⟩

/-! ## Naming types -/

/-- Filling in names leaves a map in order, if it does so for each type in it. -/
theorem allOrdered_allNamed (h : types.Ascending)
    (htypes : ∀ entry ∈ types, (entry.2.named entry.1).Ordered) : AllOrdered (allNamed types) where
  ascending := by
    rw [Ascending, names_allNamed]
    exact h
  ordered := by
    rw [allNamed_eq]
    intro entry hentry
    obtain ⟨old, hold, rfl⟩ := List.mem_map.1 hentry
    exact htypes old hold

theorem Ordered.named (h : type.Ordered) : (type.named key).Ordered := by
  induction h generalizing key with
  | mk hfields hnested _ ih =>
    rw [ordered_iff, named_fields, named_nested]
    exact ⟨hfields, allOrdered_allNamed hnested fun entry hentry => ih entry hentry⟩

theorem AllOrdered.allNamed (h : AllOrdered types) : AllOrdered (allNamed types) :=
  allOrdered_allNamed h.ascending fun entry hentry => (h.ordered entry hentry).named

/-! ## Reading types -/

/-- The maps of a type are read from some of the given values, or left out. -/
def ReadFrom (values : List Json) (type : StructType) : Prop :=
  (type.fields = [] ∨ ∃ j ∈ values, map? Field.ofJson? j = some type.fields) ∧
    (type.nested = [] ∨ ∃ j ∈ values, map? StructType.ofJson? j = some type.nested)

theorem readFrom_object {members : List (String × Json)}
    (h : StructType.ofJson? (.object members) = some type) :
    ReadFrom (members.map Prod.snd) type := by
  have hpart {α : Type} {part : Option Json} {read : Json → Option (Entries α)}
      {entries : Entries α} {name : String} (hpart : part? name members = some part)
      (hread : optional [] read part = some entries) :
      entries = [] ∨ ∃ j ∈ members.map Prod.snd, read j = some entries := by
    refine (optional_eq_some hread).imp_right ?_
    rintro ⟨j, rfl, hread⟩
    exact ⟨j, List.mem_map_of_mem (mem_of_part? hpart), hread⟩
  simp only [ofJson?_object, Option.bind_eq_bind, Option.bind_eq_some_iff, Option.pure_def,
    Option.some.injEq] at h
  obtain ⟨_, -, _, -, _, hfields, fields, hfieldsRead, _, hnested, nested, hnestedRead, rfl⟩ := h
  exact ⟨hpart hfields hfieldsRead, hpart hnested hnestedRead⟩

theorem readFrom_array {items : List Json}
    (h : StructType.ofJson? (.array items) = some type) : ReadFrom items type := by
  -- the parts of the array stand in their order, and the last ones may be missing
  match items with
  | [] =>
    cases h
    exact ⟨.inl rfl, .inl rfl⟩
  | [_] =>
    simp only [StructType.ofJson?, Option.bind_eq_bind, Option.bind_eq_some_iff, Option.pure_def,
      Option.some.injEq] at h
    obtain ⟨_, -, rfl⟩ := h
    exact ⟨.inl rfl, .inl rfl⟩
  | [_, fields] =>
    simp only [StructType.ofJson?, Option.bind_eq_bind, Option.bind_eq_some_iff, Option.pure_def,
      Option.some.injEq] at h
    obtain ⟨_, -, _, hfields, rfl⟩ := h
    exact ⟨.inr ⟨fields, by simp, hfields⟩, .inl rfl⟩
  | [_, fields, nested] =>
    simp only [StructType.ofJson?, Option.bind_eq_bind, Option.bind_eq_some_iff, Option.pure_def,
      Option.some.injEq, mapOf?_eq] at h
    obtain ⟨_, -, _, hfields, _, hnested, rfl⟩ := h
    exact ⟨.inr ⟨fields, by simp, hfields⟩, .inr ⟨nested, by simp, hnested⟩⟩
  | _ :: _ :: _ :: _ :: _ => simp [StructType.ofJson?] at h

/-- A type is in order if the maps in the values that it is read from are. -/
theorem ReadFrom.ordered {values : List Json} (h : ReadFrom values type)
    (hvalues : ∀ j ∈ values, ∀ types, map? StructType.ofJson? j = some types → AllOrdered types) :
    type.Ordered := by
  obtain ⟨hfields, hnested⟩ := h
  refine ordered_iff.2 ⟨?_, ?_⟩
  · rcases hfields with hnil | ⟨j, -, hread⟩
    · exact hnil ▸ ascending_nil
    · exact ascending_of_map? hread
  · rcases hnested with hnil | ⟨j, hj, hread⟩
    · exact hnil ▸ allOrdered_nil
    · exact hvalues j hj _ hread

/-- **What is read is in order**: types, and maps of types. -/
theorem ordered_of_read (j : Json) :
    (∀ type, StructType.ofJson? j = some type → type.Ordered) ∧
      ∀ types, map? StructType.ofJson? j = some types → AllOrdered types := by
  induction j using Json.induction with
  | null | bool _ | number _ | string _ =>
    refine ⟨fun type h => ?_, fun types h => by cases h⟩
    simp [StructType.ofJson?] at h
  | array items ih =>
    refine ⟨fun type h => ?_, fun types h => by cases h⟩
    exact (readFrom_array h).ordered fun j hj => (ih j hj).2
  | object members ih =>
    constructor
    · intro type h
      refine (readFrom_object h).ordered fun j hj => ?_
      obtain ⟨m, hm, rfl⟩ := List.mem_map.1 hj
      exact (ih m hm).2
    · intro types h
      exact ⟨ascending_of_map? h, forall_of_entries? (List.forall_mem_nil _)
        (fun m hm type htype => (ih m hm).1 type htype) h⟩

theorem allOrdered_of_optional {part : Option Json}
    (h : optional [] mapOf? part = some types) : AllOrdered types := by
  rw [funext mapOf?_eq] at h
  exact ⟨ascending_of_optional h, forall_of_optional (fun j => (ordered_of_read j).1) h⟩

end StructType

/-! ## Schemas -/

namespace Schema

variable {s : Schema} {package : String}

/-- All maps of a schema are in ascending order. -/
structure Ordered (s : Schema) : Prop where
  row : s.row.Ascending
  resources : StructType.AllOrdered s.resources
  common : StructType.AllOrdered s.common
  groups : s.enums.Ascending
  enums : ∀ group ∈ s.enums, group.2.Ascending

/-- A step of the building of a schema. -/
inductive Step where
  | resource (name : String) (type : StructType)
  | common (name : String) (type : StructType)
  | enum (group name : String) (values : List String)
  | resourceRow (name type : String)
  | commonRow (name type : String)

namespace Step

/-- The schema after a step. -/
def apply (s : Schema) : Step → Schema
  | resource name type => s.withResource name type
  | common name type => s.withCommon name type
  | enum group name values => s.withEnum group name values
  | resourceRow name type => s.withResourceRow name type
  | commonRow name type => s.withCommonRow name type

/-- The definition in a step, if it has one, keeps its maps in order. -/
def IsOrdered : Step → Prop
  | resource _ type | common _ type => type.Ordered
  | enum _ _ _ | resourceRow _ _ | commonRow _ _ => True

/-- **A step keeps the order.** -/
theorem ordered {step : Step} (h : s.Ordered) (hstep : step.IsOrdered) : (step.apply s).Ordered := by
  cases step with
  | resource name type => exact { h with resources := h.resources.insert hstep.withName }
  | common name type => exact { h with common := h.common.insert hstep.withName }
  | enum group name values =>
    have henums : Ascending ((s.enums.find? group).getD []) := by
      cases hfound : s.enums.find? group with
      | none => exact ascending_nil
      | some enums => exact h.enums _ (mem_of_find? hfound)
    exact { h with groups := h.groups.insert, enums := forall_mem_insert h.enums henums.insert }
  | resourceRow name type => exact { h with row := h.row.insert }
  | commonRow name type => exact { h with row := h.row.insert }

end Step

/-- The schema that is built by a list of steps. Its names are filled in at the end. -/
def build (package : String) (steps : List Step) : Schema :=
  (steps.foldl Step.apply (empty package)).named

theorem ordered_empty (package : String) : (empty package).Ordered :=
  ⟨ascending_nil, StructType.allOrdered_nil, StructType.allOrdered_nil, ascending_nil,
    List.forall_mem_nil _⟩

/-- So does any number of steps. -/
theorem Ordered.steps {steps : List Step} (h : s.Ordered) (hsteps : ∀ step ∈ steps, step.IsOrdered) :
    (steps.foldl Step.apply s).Ordered := by
  induction steps generalizing s with
  | nil => exact h
  | cons step rest ih =>
    exact ih (Step.ordered h (hsteps step List.mem_cons_self))
      fun step hstep => hsteps step (List.mem_cons_of_mem _ hstep)

theorem Ordered.named (h : s.Ordered) : s.named.Ordered where
  row := h.row
  resources := h.resources.allNamed
  common := h.common.allNamed
  groups := by
    rw [Schema.named, Ascending, names, List.map_map]
    exact h.groups
  enums := by
    intro group hgroup
    obtain ⟨old, hold, rfl⟩ := List.mem_map.1 hgroup
    exact (h.enums old hold).map fun key (e : EnumType) => e.named key

/-- The maps of a schema are read one by one, or left out. -/
theorem ordered_of_optional {row resources common enums : Option Json}
    (hrow : optional [] (map? Field.ofJson?) row = some s.row)
    (hresources : optional [] StructType.mapOf? resources = some s.resources)
    (hcommon : optional [] StructType.mapOf? common = some s.common)
    (henums : optional [] (map? (map? EnumType.ofJson?)) enums = some s.enums) : s.Ordered where
  row := ascending_of_optional hrow
  resources := StructType.allOrdered_of_optional hresources
  common := StructType.allOrdered_of_optional hcommon
  groups := ascending_of_optional henums
  enums := forall_of_optional (fun _ _ => ascending_of_map?) henums

/-- **What is read is in order**, whatever the order in the descriptor. -/
theorem ordered_of_unnamed? (h : unnamed? j = some s) : s.Ordered := by
  cases j with
  | object members =>
    simp only [unnamed?, Option.bind_eq_bind, Option.bind_eq_some_iff, Option.pure_def,
      Option.some.injEq] at h
    obtain ⟨_, -, _, -, _, -, _, -, row, hrow, _, -, resources, hresources, _, -, common, hcommon,
      _, -, enums, henums, rfl⟩ := h
    exact ordered_of_optional hrow hresources hcommon henums
  | array items =>
    cases items with
    | nil => simp [unnamed?] at h
    | cons _ parts =>
      rw [unnamed?] at h
      split at h
      · cases h
      · simp only [Option.bind_eq_bind, Option.bind_eq_some_iff, Option.pure_def,
          Option.some.injEq] at h
        obtain ⟨_, -, row, hrow, resources, hresources, common, hcommon, enums, henums, rfl⟩ := h
        exact ordered_of_optional hrow hresources hcommon henums
  | null | bool _ | number _ | string _ => simp [unnamed?] at h

end Schema
end ReportQuery
