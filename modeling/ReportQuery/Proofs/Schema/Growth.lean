import Mathlib.Logic.Relation
import ReportQuery.Proofs.Entries
import ReportQuery.Proofs.Outcome
import ReportQuery.Proofs.Schema.Walk
/-!
# Schemas that grow

A schema grows by one entry at a time (`Addition`), and however it grows, what a look-up has
found before it finds again (`Extends`). A short name is the only reference with more than
one place to look in. The types nested in the struct where it stands do not change; a
resource type comes before a common one, so a new resource type must not take the name of a
common type. Hence references, steps and whole walks that succeed lead to the same type in
the grown schema (`Extends.fieldType`).
-/

namespace ReportQuery.Schema

open Outcome

variable {s s' s'' : Schema} {scope current next struct : StructType} {type : TypeRef}
variable {name reference path segment : String} {rest : List String} {r : Resolved}

/-- One new entry in a schema: a name of the row, a resource type whose name no resource or
common type has, a common type whose name no common type has, or an enum that its group does
not have yet. -/
inductive Addition (s : Schema) : Schema → Prop
  | row {name : String} {field : Field} : s.row.find? name = none →
      Addition s { s with row := s.row.insert name field }
  | resource {name : String} {type : StructType} : s.resources.find? name = none →
      s.common.find? name = none →
      Addition s { s with resources := s.resources.insert name type }
  | common {name : String} {type : StructType} : s.common.find? name = none →
      Addition s { s with common := s.common.insert name type }
  | enum {group name : String} {e : EnumType} :
      (s.enums.find? group).bind (Entries.find? name) = none →
      Addition s { s with
        enums := s.enums.insert group (((s.enums.find? group).getD []).insert name e) }

/-- What is found in a schema is found in another one too, by every look-up that the
resolution of references makes. -/
structure Extends (s s' : Schema) : Prop where
  package : s'.package = s.package
  row : ∀ {name field}, s.row.find? name = some field → s'.row.find? name = some field
  resources : ∀ {name type}, s.resources.find? name = some type →
    s'.resources.find? name = some type
  common : ∀ {name type}, s.common.find? name = some type → s'.common.find? name = some type
  enums : ∀ {group name e}, (s.enums.find? group).bind (Entries.find? name) = some e →
    (s'.enums.find? group).bind (Entries.find? name) = some e
  /-- No resource type takes the short name of a common type. -/
  unshadowed : ∀ {name type}, s.common.find? name = some type → s.resources.find? name = none →
    s'.resources.find? name = none

namespace Extends

theorem refl (s : Schema) : Extends s s :=
  ⟨rfl, fun h => h, fun h => h, fun h => h, fun h => h, fun _ h => h⟩

theorem trans (h : Extends s s') (h' : Extends s' s'') : Extends s s'' where
  package := h'.package.trans h.package
  row hfound := h'.row (h.row hfound)
  resources hfound := h'.resources (h.resources hfound)
  common hfound := h'.common (h.common hfound)
  enums hfound := h'.enums (h.enums hfound)
  unshadowed hcommon hnone := h'.unshadowed (h.common hcommon) (h.unshadowed hcommon hnone)

end Extends

/-- What is found among entries is found again after a new name has been inserted. -/
theorem find?_insert_of_find? {α : Type} {entries : Entries α} {key : String} {a b : α}
    (hnew : entries.find? key = none) (h : entries.find? name = some a) :
    (entries.insert key b).find? name = some a := by
  have hne : key ≠ name := by
    rintro rfl
    rw [hnew] at h
    cases h
  rw [Entries.find?_insert, if_neg hne, h]

/-- **A schema with one more entry extends the schema.** -/
theorem Addition.extends (h : Addition s s') : Extends s s' := by
  cases h with
  | row hnew => exact { Extends.refl s with row := fun h => find?_insert_of_find? hnew h }
  | @resource name type hnew hcommon =>
    refine { Extends.refl s with
      resources := fun h => find?_insert_of_find? hnew h
      unshadowed := fun {other type} hother hnone => ?_ }
    have hne : name ≠ other := by
      rintro rfl
      rw [hcommon] at hother
      cases hother
    rw [Entries.find?_insert, if_neg hne, hnone]
  | common hnew => exact { Extends.refl s with common := fun h => find?_insert_of_find? hnew h }
  | @enum group name e hnew =>
    refine { Extends.refl s with enums := fun {group' name' e'} h => ?_ }
    rw [Entries.find?_insert]
    split
    · next hgroup =>
      subst hgroup
      obtain ⟨entries, hentries, hfound⟩ := Option.bind_eq_some_iff.1 h
      rw [hentries, Option.bind_some] at hnew
      rw [Option.bind_some, hentries, Option.getD_some]
      exact find?_insert_of_find? hnew hfound
    · exact h

/-- A schema that has grown by any number of entries extends the schema. -/
theorem extends_of_additions (h : Relation.ReflTransGen Addition s s') : Extends s s' := by
  induction h with
  | refl => exact .refl s
  | tail _ hlast ih => exact ih.trans hlast.extends

/-! ## References -/

namespace Extends

/-- The struct of a row entry stays. -/
theorem resource (h : Extends s s') (hfound : s.resource name = .ok struct) :
    s'.resource name = .ok struct := by
  rw [Schema.resource] at hfound ⊢
  split at hfound
  · cases hfound
  · next field hfield =>
    rw [h.row hfield]
    dsimp only at hfound ⊢
    rw [resourcesPrefix, commonPrefix, h.package, ← resourcesPrefix, ← commonPrefix]
    split at hfound
    · next type htype =>
      cases hfound
      split at htype
      · next hresources => rw [if_pos hresources, h.resources htype]
      · next hresources =>
        rw [if_neg hresources]
        split at htype
        · next hcommon => rw [if_pos hcommon, h.common htype]
        · cases htype
    · cases hfound

theorem qualifiedEnum {text : List Char} (h : Extends s s')
    (hfound : s.qualifiedEnum reference text = .ok type) :
    s'.qualifiedEnum reference text = .ok type := by
  rw [Schema.qualifiedEnum] at hfound ⊢
  split at hfound
  · split at hfound
    · next e he => rw [h.enums he, ← hfound]
    · cases hfound
  · cases hfound

theorem shortName (h : Extends s s') (hfound : s.shortName scope reference = .ok type) :
    s'.shortName scope reference = .ok type := by
  rw [Schema.shortName] at hfound ⊢
  split at hfound
  · exact hfound
  · split at hfound
    · next struct hstruct => rw [h.resources hstruct, ← hfound]
    · next hnone =>
      split at hfound
      · next struct hstruct => rw [h.unshadowed hstruct hnone, h.common hstruct, ← hfound]
      · cases hfound

end Extends

/-- A qualified reference is resolved alike in entries that extend others. -/
theorem qualifiedStruct_of_extends {types types' : Entries StructType} {text : List Char}
    (h : ∀ {name type}, types.find? name = some type → types'.find? name = some type)
    (hfound : qualifiedStruct types scope reference text = .ok struct) :
    qualifiedStruct types' scope reference text = .ok struct := by
  rw [qualifiedStruct] at hfound ⊢
  split at hfound
  · cases hfound
  · split at hfound
    · cases hfound
    · next hname =>
      split at hfound
      · next found hstruct => rw [if_neg hname, h hstruct, ← hfound]
      · cases hfound

namespace Extends

/-- **A reference keeps its type**, wherever it stands. -/
theorem resolveType (h : Extends s s') (hfound : s.resolveType scope reference = .ok type) :
    s'.resolveType scope reference = .ok type := by
  rw [Schema.resolveType] at hfound ⊢
  rw [enumsPrefix, commonPrefix, resourcesPrefix, h.package, ← enumsPrefix, ← commonPrefix,
    ← resourcesPrefix]
  split at hfound
  · exact hfound
  · split at hfound
    · exact h.qualifiedEnum hfound
    · split at hfound
      · obtain ⟨struct, hstruct, rfl⟩ := map_eq_ok.1 hfound
        exact map_eq_ok.2 ⟨struct, qualifiedStruct_of_extends h.common hstruct, rfl⟩
      · split at hfound
        · obtain ⟨struct, hstruct, rfl⟩ := map_eq_ok.1 hfound
          exact map_eq_ok.2 ⟨struct, qualifiedStruct_of_extends h.resources hstruct, rfl⟩
        · exact h.shortName hfound

/-! ## Walks -/

theorem lastStep (h : Extends s s') (hstep : s.lastStep path current segment = .ok r) :
    s'.lastStep path current segment = .ok r := by
  rw [Schema.lastStep] at hstep ⊢
  split at hstep
  · cases hstep
  · obtain ⟨type, htype, rfl⟩ := map_eq_ok.1 hstep
    exact map_eq_ok.2 ⟨type, h.resolveType htype, rfl⟩

theorem innerStep (h : Extends s s') (hstep : s.innerStep path current segment = .ok next) :
    s'.innerStep path current segment = .ok next := by
  rw [Schema.innerStep] at hstep ⊢
  split at hstep
  · cases hstep
  · split at hstep
    · cases hstep
    · next hrepeated =>
      cases htype : s.resolveType current _ with
      | error e => rw [htype] at hstep; cases hstep
      | ok type =>
        rw [htype] at hstep
        rw [if_neg hrepeated, h.resolveType htype]
        exact hstep

/-- **A walk that ends, ends alike in a schema that extends this one.** -/
theorem walk (h : Extends s s') (hwalk : s.walk path current rest = .ok r) :
    s'.walk path current rest = .ok r := by
  induction rest generalizing current with
  | nil => cases hwalk
  | cons segment rest ih =>
    by_cases hrest : rest = []
    · subst hrest
      exact h.lastStep hwalk
    · rw [walk_cons hrest, bind_eq_ok] at hwalk ⊢
      obtain ⟨next, hnext, hwalk⟩ := hwalk
      exact ⟨next, h.innerStep hnext, ih hwalk⟩

theorem fieldType (h : Extends s s') (hfound : s.fieldType current rest = .ok r) :
    s'.fieldType current rest = .ok r := h.walk hfound

end Extends
end ReportQuery.Schema
