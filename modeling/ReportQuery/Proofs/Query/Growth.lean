import ReportQuery.Proofs.Query.Columns
import ReportQuery.Proofs.Schema.Growth
/-!
# Queries of a schema that grows

A query that compiles goes on to do so, with the same result, while the schema grows
(`compile_of_addition`). The text that is sent and the items that are selected do not depend
on the schema; the resource and the types of the columns are found by look-ups and walks that
an added entry leaves alone.
-/

namespace ReportQuery.Query

open Outcome Schema

variable {s s' : Schema} {parameters : Entries String} {text query : List Char} {field : String}
variable {customizer : Option Customizer} {type : FieldType} {selected : List SelectItem}
variable {cols : List Column} {q : CompiledQuery}

/-- The type of a column stays, with a nested path and without. -/
theorem columnType_of_extends (h : Extends s s') (htype : columnType s field customizer = .ok type) :
    columnType s' field customizer = .ok type := by
  simp only [columnType, bind_eq_ok, mapError_eq_ok] at htype ⊢
  obtain ⟨root, hroot, base, hbase, htype⟩ := htype
  refine ⟨root, h.resource hroot, base, h.fieldType hbase, ?_⟩
  split at htype
  · split at htype
    · cases htype
    · obtain ⟨inner, hinner, htype⟩ := bind_eq_ok.1 htype
      exact bind_eq_ok.2 ⟨inner, mapError_eq_ok.2 (h.fieldType (mapError_eq_ok.1 hinner)), htype⟩
  · exact htype

theorem columns_of_extends (h : Extends s s') (hcols : columns s selected = .ok cols) :
    columns s' selected = .ok cols := by
  induction selected generalizing cols with
  | nil => exact hcols
  | cons item rest ih =>
    rw [columns, List.mapM_cons, bind_eq_ok] at hcols ⊢
    obtain ⟨column, hcolumn, hcols⟩ := hcols
    obtain ⟨others, hothers, hcols⟩ := bind_eq_ok.1 hcols
    obtain ⟨type, htype, hcolumn⟩ := bind_eq_ok.1 hcolumn
    exact ⟨column, bind_eq_ok.2 ⟨type, columnType_of_extends h htype, hcolumn⟩,
      bind_eq_ok.2 ⟨others, ih hothers, hcols⟩⟩

theorem source_of_extends {source : Source} (h : Extends s s')
    (hsource : Query.source s query = .ok source) : Query.source s' query = .ok source := by
  rw [Query.source] at hsource ⊢
  split at hsource
  · cases hsource
  · obtain ⟨type, htype, hsource⟩ := bind_eq_ok.1 hsource
    exact bind_eq_ok.2 ⟨type, mapError_eq_ok.2 (h.resource (mapError_eq_ok.1 htype)), hsource⟩

/-- **What compiles, compiles alike in a schema that extends this one.** -/
theorem compile_of_extends (h : Extends s s') (hq : compile s parameters text = .ok q) :
    compile s' parameters text = .ok q := by
  obtain ⟨sent, hsent, hq⟩ := bind_eq_ok.1 hq
  obtain ⟨selected, hselected, hq⟩ := bind_eq_ok.1 hq
  refine bind_eq_ok.2 ⟨sent, hsent, bind_eq_ok.2 ⟨selected, hselected, ?_⟩⟩
  split at hq
  · cases hq
  · obtain ⟨source, hsource, hq⟩ := bind_eq_ok.1 hq
    obtain ⟨cols, hcols, hq⟩ := bind_eq_ok.1 hq
    exact bind_eq_ok.2 ⟨source, source_of_extends h hsource,
      bind_eq_ok.2 ⟨cols, columns_of_extends h hcols, hq⟩⟩

/-- **However a schema grows**, entry by entry, what has compiled compiles with the same
result. -/
theorem compile_of_additions (h : Relation.ReflTransGen Addition s s')
    (hq : compile s parameters text = .ok q) : compile s' parameters text = .ok q :=
  compile_of_extends (extends_of_additions h) hq

/-- **A new entry in a schema changes no query that compiles.** The text to send, the resource
with its declaration, and the columns with their types stay as they are. -/
theorem compile_of_addition (s s' : Schema) (parameters : Entries String) (text : List Char)
    (q : CompiledQuery) (h : Addition s s') (hq : compile s parameters text = .ok q) :
    compile s' parameters text = .ok q :=
  compile_of_extends h.extends hq

/-- A new resource type that has the name of a nested type, and a new common type that has the
name of a resource type, in a schema that both names are used in. -/
theorem compile_of_addition_sample :
    ∃ q, compile .sample []
        "SELECT campaign.caps:limit, campaign.network.search FROM campaign".toList = .ok q ∧
      q.types = [⟨.primitive, "int32", true⟩, ⟨.primitive, "bool", false⟩] ∧
      compile (Schema.sample.withResource "Cap" (.empty ""))
        [] "SELECT campaign.caps:limit, campaign.network.search FROM campaign".toList = .ok q ∧
      compile (Schema.sample.withCommon "Campaign" (.empty ""))
        [] "SELECT campaign.caps:limit, campaign.network.search FROM campaign".toList = .ok q := by
  have hrun : (compile .sample []
      "SELECT campaign.caps:limit, campaign.network.search FROM campaign".toList).toOption.map
      CompiledQuery.types = some [⟨.primitive, "int32", true⟩, ⟨.primitive, "bool", false⟩] := by
    decide +kernel
  obtain ⟨q, hq, htypes⟩ := Option.map_eq_some_iff.1 hrun
  rw [toOption_eq_some] at hq
  have hresources : Schema.sample.resources.find? "Cap" = none := rfl
  have hcap : Schema.sample.common.find? "Cap" = none := rfl
  have hcampaign : Schema.sample.common.find? "Campaign" = none := rfl
  exact ⟨q, hq, htypes, compile_of_addition _ _ _ _ q (.resource hresources hcap) hq,
    compile_of_addition _ _ _ _ q (.common hcampaign) hq⟩

end ReportQuery.Query
