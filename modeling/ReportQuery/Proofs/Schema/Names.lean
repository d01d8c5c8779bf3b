import ReportQuery.Proofs.Entries
import ReportQuery.Proofs.Outcome
import ReportQuery.Proofs.Schema.Walk
import ReportQuery.Proofs.Text.Split
import ReportQuery.Text.Class
/-!
# Names of a schema

In a schema whose names are made of word characters, so are the segments of every field
path that has a type (`isName_of_walk`): a walk only leads to types of the schema, and
each segment is the name of a field there.
-/

namespace ReportQuery

open Text Outcome

/-- A name made of word characters. -/
def isName (name : String) : Bool := name.toList.all isWord

mutual

/-- Whether the fields of a type, and of the types nested in it, have such names. -/
def StructType.hasNames : StructType → Bool
  | ⟨_, fields, nested⟩ => fields.all (fun entry => isName entry.1) && StructType.allHaveNames nested

/-- Whether the fields of all types of a list have such names. -/
def StructType.allHaveNames : List (String × StructType) → Bool
  | [] => true
  | (_, type) :: rest => type.hasNames && StructType.allHaveNames rest

end

/-- Whether the names of a schema that a query can use are made of word characters. -/
def Schema.hasNames (s : Schema) : Bool :=
  s.row.all (fun entry => isName entry.1) && StructType.allHaveNames s.resources &&
    StructType.allHaveNames s.common

namespace StructType

variable {type struct : StructType} {types : Entries StructType} {name : String}

theorem hasNames_of_find? (htypes : allHaveNames types = true)
    (h : types.find? name = some struct) : struct.hasNames = true := by
  induction types with
  | nil => cases h
  | cons entry rest ih =>
    obtain ⟨n, type⟩ := entry
    rw [allHaveNames, Bool.and_eq_true] at htypes
    rw [Entries.find?] at h
    split at h
    · cases h
      exact htypes.1
    · exact ih htypes.2 h

theorem isName_of_field (htype : type.hasNames = true) {field : Field}
    (h : type.fields.find? name = some field) : isName name = true := by
  obtain ⟨own, fields, nested⟩ := type
  rw [hasNames, Bool.and_eq_true] at htype
  exact List.all_eq_true.1 htype.1 _ (Entries.mem_of_find? h)

theorem allHaveNames_nested (htype : type.hasNames = true) :
    allHaveNames type.nested = true := by
  obtain ⟨own, fields, nested⟩ := type
  rw [hasNames, Bool.and_eq_true] at htype
  exact htype.2

end StructType

namespace Schema

variable {s : Schema} {scope struct current : StructType} {type : TypeRef} {name reference path : String}
variable {rest : List String} {r : Resolved}

theorem hasNames_of_resource (hs : s.hasNames = true) (h : s.resource name = .ok struct) :
    isName name = true ∧ struct.hasNames = true := by
  simp only [hasNames, Bool.and_eq_true] at hs
  rw [resource] at h
  split at h
  · cases h
  · next field hfield =>
    refine ⟨List.all_eq_true.1 hs.1.1 _ (Entries.mem_of_find? hfield), ?_⟩
    dsimp only at h
    split at h
    · next found hfound =>
      cases h
      split at hfound
      · exact StructType.hasNames_of_find? hs.1.2 hfound
      · split at hfound
        · exact StructType.hasNames_of_find? hs.2 hfound
        · cases hfound
    · cases h

theorem hasNames_of_qualifiedStruct {types : Entries StructType} {text : List Char}
    (htypes : StructType.allHaveNames types = true)
    (h : qualifiedStruct types scope reference text = .ok struct) : struct.hasNames = true := by
  rw [qualifiedStruct] at h
  split at h
  · cases h
  · split at h
    · cases h
    · split at h
      · next found hfound =>
        cases h
        exact StructType.hasNames_of_find? htypes hfound
      · cases h

theorem hasNames_of_shortName (hs : s.hasNames = true) (hscope : scope.hasNames = true)
    (h : s.shortName scope reference = .ok type) (hf : type.fields? = some struct) :
    struct.hasNames = true := by
  simp only [hasNames, Bool.and_eq_true] at hs
  rw [shortName] at h
  split at h
  · next found hfound =>
    cases h
    cases hf
    exact StructType.hasNames_of_find? (StructType.allHaveNames_nested hscope) hfound
  · split at h
    · next found hfound =>
      cases h
      cases hf
      exact StructType.hasNames_of_find? hs.1.2 hfound
    · split at h
      · next found hfound =>
        cases h
        cases hf
        exact StructType.hasNames_of_find? hs.2 hfound
      · cases h

/-- **What a reference refers to is a type of the schema.** -/
theorem hasNames_of_resolveType (hs : s.hasNames = true) (hscope : scope.hasNames = true)
    (h : s.resolveType scope reference = .ok type) (hf : type.fields? = some struct) :
    struct.hasNames = true := by
  have hs' := hs
  simp only [hasNames, Bool.and_eq_true] at hs'
  rw [resolveType] at h
  split at h
  · cases h
    cases hf
  · split at h
    · -- a group of enums has no types with fields
      rw [qualifiedEnum] at h
      split at h
      · split at h
        · cases h
          cases hf
        · cases h
      · cases h
    · split at h
      · obtain ⟨found, hfound, rfl⟩ := map_eq_ok.1 h
        cases hf
        exact hasNames_of_qualifiedStruct hs'.2 hfound
      · split at h
        · obtain ⟨found, hfound, rfl⟩ := map_eq_ok.1 h
          cases hf
          exact hasNames_of_qualifiedStruct hs'.1.2 hfound
        · exact hasNames_of_shortName hs hscope h hf

/-- An inner step takes the name of a field and leads to a type of the schema. -/
theorem hasNames_of_innerStep (hs : s.hasNames = true) (hcurrent : current.hasNames = true)
    (h : s.innerStep path current name = .ok struct) :
    isName name = true ∧ struct.hasNames = true := by
  rw [innerStep] at h
  split at h
  · cases h
  · next field hfield =>
    refine ⟨StructType.isName_of_field hcurrent hfield, ?_⟩
    split at h
    · cases h
    · split at h
      · cases h
      · cases h
      · cases h
      · next found hfound =>
        cases h
        exact hasNames_of_resolveType hs hcurrent hfound rfl
      · next found hfound =>
        cases h
        exact hasNames_of_resolveType hs hcurrent hfound rfl

theorem isName_of_lastStep (hcurrent : current.hasNames = true)
    (h : s.lastStep path current name = .ok r) : isName name = true := by
  rw [lastStep] at h
  split at h
  · cases h
  · next field hfield => exact StructType.isName_of_field hcurrent hfield

/-- **Every segment of a path that has an end is a name.** -/
theorem isName_of_walk (hs : s.hasNames = true) (hcurrent : current.hasNames = true)
    (h : s.walk path current rest = .ok r) : ∀ segment ∈ rest, isName segment = true := by
  induction rest generalizing current with
  | nil => simp
  | cons segment rest ih =>
    by_cases hrest : rest = []
    · subst hrest
      intro name hname
      rw [List.mem_singleton.1 hname]
      exact isName_of_lastStep hcurrent h
    · rw [walk_cons hrest] at h
      obtain ⟨next, hnext, h⟩ := bind_eq_ok.1 h
      obtain ⟨hsegment, hnames⟩ := hasNames_of_innerStep hs hcurrent hnext
      intro name hname
      rcases List.mem_cons.1 hname with rfl | hname
      · exact hsegment
      · exact ih hnames h name hname

end Schema
end ReportQuery
