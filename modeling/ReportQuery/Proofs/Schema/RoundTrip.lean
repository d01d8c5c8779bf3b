import ReportQuery.Proofs.Schema.Ordered
/-!
# Descriptors are read back

A schema in order is read back from its descriptor, with its members as they are written or laid
out anew (`Schema.Ordered.restored`): what is left out of a descriptor is what the reader puts
there by itself, and every map is written entry by entry in the order that it is read into. The
names of a schema that can be had are filled in already, so filling them in once more when it is
loaded changes nothing, and it is loaded again as it is (`restored_of_obtained`).
-/

namespace ReportQuery

open Json Entries

variable {form : Json → Json}

/-- A field is read back: its mark and its label stand where they say something. -/
theorem Field.restored (h : Layout form) (f : Field) :
    Field.ofJson? (form f.toJson) = some f := by
  obtain ⟨type, repeated, rule⟩ := f
  obtain ⟨members, hmembers, hparts⟩ :=
    h.exists_part? (rfl : toJson ⟨type, repeated, rule⟩ = .object _) (by
      cases repeated <;> cases rule <;> simp [names])
  rw [hmembers, ofJson?]
  cases repeated <;> cases rule <;>
    simp [hparts, find?, h.string, h.bool, text?, bool?, rule?, Json.optional]

theorem EnumType.restored (h : Layout form) (e : EnumType) :
    EnumType.ofJson? (form e.toJson) = some e := by
  obtain ⟨members, hmembers, hparts⟩ :=
    h.exists_part? (rfl : e.toJson = .object _) (by simp [names])
  rw [hmembers, ofJson?]
  simp [hparts, find?, h.string, h.texts?, text?, Json.optional]

namespace StructType

theorem entriesToJson_eq (types : Entries StructType) :
    entriesToJson types = types.map fun entry => (entry.1, entry.2.toJson) := by
  induction types with
  | nil => rw [entriesToJson, List.map_nil]
  | cons entry rest ih => rw [entriesToJson, ih, List.map_cons]

/-- **A type is read back**, with the types nested in it at every depth. -/
theorem Ordered.restored (h : Layout form) {type : StructType} (htype : type.Ordered) :
    StructType.ofJson? (form type.toJson) = some type := by
  induction htype with
  | @mk type hfields hnested _ ih =>
    obtain ⟨name, fields, nested⟩ := type
    have hfieldsRead : map? Field.ofJson?
        (form (.object (fields.map fun f => (f.1, f.2.toJson)))) = some fields :=
      h.map? Field.toJson hfields fun f _ => f.2.restored h
    have hnestedRead : map? StructType.ofJson?
        (form (.object (entriesToJson nested))) = some nested := by
      rw [entriesToJson_eq]
      exact h.map? toJson hnested ih
    obtain ⟨members, hmembers, hparts⟩ :=
      h.exists_part? (by rw [toJson] : toJson ⟨name, fields, nested⟩ = .object _) (by
        cases nested.isEmpty <;> simp [names])
    rw [hmembers, ofJson?_object]
    cases nested with
    | nil => simp [hparts, find?, h.string, text?, Json.optional, hfieldsRead]
    | cons entry rest =>
      simp [hparts, find?, h.string, text?, Json.optional, hfieldsRead, hnestedRead]

theorem AllOrdered.restored (h : Layout form) {types : Entries StructType}
    (htypes : AllOrdered types) : mapOf? (form (.object (entriesToJson types))) = some types := by
  rw [mapOf?_eq, entriesToJson_eq]
  exact h.map? toJson htypes.ascending fun entry hentry => (htypes.ordered entry hentry).restored h

end StructType

namespace Schema

variable {s : Schema}

/-- **A schema in order is read back**, whatever the layout of its descriptor. -/
theorem Ordered.restored (h : Layout form) (hs : s.Ordered) :
    unnamed? (form s.toJson) = some s := by
  have hrow : map? Field.ofJson? (form (.object (s.row.map fun f => (f.1, f.2.toJson)))) =
      some s.row :=
    h.map? Field.toJson hs.row fun f _ => f.2.restored h
  have hresources := hs.resources.restored h
  have hcommon := hs.common.restored h
  have henums : map? (map? EnumType.ofJson?) (form (.object (s.enums.map fun group =>
      (group.1, .object (group.2.map fun e => (e.1, e.2.toJson)))))) = some s.enums :=
    h.map? (fun group : Entries EnumType => .object (group.map fun e => (e.1, e.2.toJson))) hs.groups
      fun group hgroup => h.map? EnumType.toJson (hs.enums group hgroup) fun e _ => e.2.restored h
  obtain ⟨members, hmembers, hparts⟩ :=
    h.exists_part? (rfl : s.toJson = .object _) (by simp [names])
  rw [hmembers, unnamed?]
  simp [hparts, find?, h.string, text?, Json.optional, hrow, hresources, hcommon, henums]

/-- The schemas that can be had: those that are loaded, from a data value or a text, and those that
are built step by step. The maps of a definition are in order, as all maps are. -/
inductive Obtained : Schema → Prop
  | loaded {j : Json} {s : Schema} : ofJson? j = some s → Obtained s
  | read {text : List Char} {s : Schema} : Schema.read text = .ok s → Obtained s
  | built (package : String) {steps : List Step} : (∀ step ∈ steps, step.IsOrdered) →
      Obtained (build package steps)

theorem exists_named_of_ofJson? {j : Json} (h : ofJson? j = some s) :
    ∃ u : Schema, u.Ordered ∧ s = u.named := by
  obtain ⟨u, hu, rfl⟩ := Option.map_eq_some_iff.1 h
  exact ⟨u, ordered_of_unnamed? hu, rfl⟩

/-- A schema that can be had is one in order, with its names filled in. -/
theorem Obtained.exists_named (h : s.Obtained) : ∃ u : Schema, u.Ordered ∧ s = u.named := by
  cases h with
  | loaded h => exact exists_named_of_ofJson? h
  | @read text _ h =>
    rw [Schema.read] at h
    split at h
    · next loaded hloaded =>
      cases h
      obtain ⟨j, -, hj⟩ := Option.bind_eq_some_iff.1 hloaded
      exact exists_named_of_ofJson? hj
    · cases h
  | built package hsteps => exact ⟨_, (ordered_empty package).steps hsteps, rfl⟩

/-- **A schema survives its descriptor.** Every schema that can be had is loaded as it is from
its own descriptor, also when the members of the descriptor are put in ascending order. Its
names have been filled in and stay as they are. Filling in the names of any schema gives every
type, at every depth, and every enum that has none the key it is kept under; it changes
nothing else, and changes nothing a second time. -/
theorem restored_of_obtained (s : Schema) (h : s.Obtained) :
    ofJson? s.toJson = some s ∧ ofJson? s.toJson.canonical = some s ∧ s.named = s ∧
      ∀ u : Schema, NamesFilled u u.named ∧ u.named.named = u.named := by
  obtain ⟨u, hu, rfl⟩ := h.exists_named
  have hrestored {form : Json → Json} (hform : Layout form) :
      ofJson? (form u.named.toJson) = some u.named := by
    rw [ofJson?, hu.named.restored hform, Option.map_some, named_named]
  exact ⟨hrestored layout_id, hrestored layout_canonical, named_named u,
    fun u => ⟨namesFilled_named u, named_named u⟩⟩

/-- A type with a label, and with a nested type that has no name. -/
def capType : StructType :=
  ⟨"Limit", [("amount", .single "int32"), ("units", ⟨"Unit", false, some "repeated"⟩)],
    [("Unit", ⟨"", [("id", .single "int64")], []⟩)]⟩

/-- Steps that build a schema in which a type is nested in a nested type. -/
def sampleSteps : List Step := [
  .enum "StatusEnum" "Status" ["ENABLED", "PAUSED"],
  .common "Network" ((StructType.empty "").withField "search" (.single "bool")),
  .resource "Campaign" (((StructType.empty "").withField "caps" ⟨"Cap", true, none⟩).withNested "Cap"
    capType),
  .resourceRow "campaign" "Campaign"]

theorem ordered_capType : capType.Ordered := by
  have hunit : (⟨"", [("id", .single "int64")], []⟩ : StructType).Ordered :=
    .mk (by decide) (by decide) (List.forall_mem_nil _)
  refine .mk (by decide) (by decide) fun entry hentry => ?_
  rw [List.mem_singleton.1 hentry]
  exact hunit

/-- The schema of these steps is loaded from its descriptor, and the type that had no name has
that of its key. -/
theorem restored_of_obtained_sample :
    ofJson? (build "ads" sampleSteps).toJson = some (build "ads" sampleSteps) ∧
      ofJson? (build "ads" sampleSteps).toJson.canonical = some (build "ads" sampleSteps) ∧
      (StructType.typeAt? ["Campaign", "Cap"] "Unit" (build "ads" sampleSteps).resources).map
        StructType.name = some "Unit" := by
  have hsteps : ∀ step ∈ sampleSteps, step.IsOrdered := by
    intro step hstep
    simp only [sampleSteps, List.mem_cons, List.not_mem_nil, or_false] at hstep
    rcases hstep with rfl | rfl | rfl | rfl
    · trivial
    · exact (StructType.ordered_empty "").withField
    · exact (StructType.ordered_empty "").withField.withNested ordered_capType
    · trivial
  obtain ⟨hwritten, hcanonical, -, -⟩ := restored_of_obtained _ (.built "ads" hsteps)
  exact ⟨hwritten, hcanonical, by decide +kernel⟩

end Schema
end ReportQuery
