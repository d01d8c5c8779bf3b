import Mathlib.Data.List.Basic
import ReportQuery.Proofs.Schema.Walk
import ReportQuery.Proofs.Text.Split
import ReportQuery.Query.Compiled
/-!
# A nested field is a longer path

The customizer `:` reads a nested field of a struct. On a struct that is not
repeated it reads what the longer dotted path reads; on a repeated one it reads
where the longer path must fail; and on a type without fields both fail. The
three cases are the one composition law of walks (`Schema.walk_append`), since the
path of `f ++ "." ++ n` is the path of `f` and then the path of `n`.
-/

namespace ReportQuery

open Text Outcome

namespace Query

variable {s : Schema} {field nested : String} {base : Resolved} {struct : StructType}

/-- Where the path of a field ends, its first segment being a name of the row. -/
def fieldEnd (s : Schema) (field : String) : Except QueryError Resolved := do
  let path := segments field
  let root ← (s.resource (path.headD "")).mapError .schema
  (s.fieldType root (path.drop 1)).mapError .schema

/-- Without a nested path, a column has the type where its field ends. -/
theorem columnType_none : columnType s field none = (fieldEnd s field).map Resolved.fieldType := by
  simp only [columnType, fieldEnd]
  cases s.resource ((segments field).headD "") with
  | error e => rfl
  | ok root => cases s.fieldType root ((segments field).drop 1) <;> rfl

/-- A nested path is walked from the struct where the field ends. -/
theorem columnType_nested (h : fieldEnd s field = .ok base)
    (hf : base.type.fields? = some struct) :
    columnType s field (some (.nestedField nested)) =
      ((s.fieldType struct (segments nested)).mapError .schema).map fun inner =>
        ⟨inner.type.kind, inner.type.typeName, inner.repeated || base.repeated⟩ := by
  obtain ⟨root, hroot, hbase⟩ := bind_eq_ok.1 h
  simp only [columnType, hroot, hbase, bind, Except.bind, hf]
  cases s.fieldType struct (segments nested) <;> rfl

/-- A nested path needs a type with fields. -/
theorem columnType_nested_scalar (h : fieldEnd s field = .ok base)
    (hf : base.type.fields? = none) :
    columnType s field (some (.nestedField nested)) =
      .error (.nestedPathOnScalar field base.type.kind base.type.typeName) := by
  obtain ⟨root, hroot, hbase⟩ := bind_eq_ok.1 h
  simp only [columnType, hroot, hbase, bind, Except.bind, hf]

/-- A field that has a type without a customizer ends somewhere. -/
theorem fieldEnd_of_columnType {type : FieldType} (h : columnType s field none = .ok type) :
    ∃ base, fieldEnd s field = .ok base ∧ base.fieldType = type := by
  rw [columnType_none] at h
  exact map_eq_ok.1 h

/-- **The longer path goes on where the field ends.** -/
theorem fieldEnd_append (h : fieldEnd s field = .ok base) :
    fieldEnd s (field ++ "." ++ nested) =
      (base.onward ((segments field).getLast (segments_ne_nil field))
          (dotted ((segments (field ++ "." ++ nested)).drop 1)) >>= fun next =>
        s.walk (dotted ((segments (field ++ "." ++ nested)).drop 1)) next
          (segments nested)).mapError .schema := by
  obtain ⟨first, path, hpath⟩ := List.exists_cons_of_ne_nil (segments_ne_nil field)
  obtain ⟨root, hroot, hbase⟩ := bind_eq_ok.1 h
  rw [mapError_eq_ok] at hroot hbase
  rw [hpath, List.headD_cons] at hroot
  rw [hpath, List.drop_succ_cons, List.drop_zero] at hbase
  -- the field names something below its row entry, so its last segment is on the walk
  obtain ⟨init, last, rfl⟩ := path.eq_nil_or_concat'.resolve_left (Schema.ne_nil_of_walk hbase)
  have hsegments : segments (field ++ "." ++ nested) = first :: (init ++ last :: segments nested) := by
    rw [segments_append_dot, hpath]
    simp
  have hlast : (segments field).getLast (segments_ne_nil field) = last := by
    simp [hpath]
  rw [fieldEnd, hsegments, hlast]
  simp only [List.headD_cons, List.drop_succ_cons, List.drop_zero, hroot]
  exact congrArg (Except.mapError QueryError.schema)
    (Schema.walk_append (segments_ne_nil nested) hbase)

/-- A type has fields exactly when its kind is that of structs. -/
theorem kind_eq_struct : base.type.kind = .struct ↔ ∃ struct, base.type.fields? = some struct := by
  cases base.type <;> simp [TypeRef.kind, TypeRef.fields?]

/-- **A nested field is what the longer path names.** Let a field have a type
without a customizer. On a struct that is not repeated, a nested path and the longer
dotted path give one answer or none. On a repeated struct the longer path fails at
the field, while the nested path is walked from the struct and is repeated. On a type
without fields both fail. -/
theorem columnType_nestedField {type : FieldType} (h : columnType s field none = .ok type)
    (nested : String) :
    (type.kind = .struct → type.repeated = false →
      (columnType s field (some (.nestedField nested))).toOption =
        (columnType s (field ++ "." ++ nested) none).toOption) ∧
    (type.kind = .struct → type.repeated = true →
      columnType s (field ++ "." ++ nested) none =
        .error (.schema (.repeatedInMiddle ((segments field).getLast (segments_ne_nil field))
          (dotted ((segments (field ++ "." ++ nested)).drop 1)))) ∧
      ∃ base struct, fieldEnd s field = .ok base ∧ base.type.fields? = some struct ∧
        columnType s field (some (.nestedField nested)) =
          ((s.fieldType struct (segments nested)).mapError .schema).map fun inner =>
            ⟨inner.type.kind, inner.type.typeName, true⟩) ∧
    (type.kind ≠ .struct →
      columnType s field (some (.nestedField nested)) =
        .error (.nestedPathOnScalar field type.kind type.typeName) ∧
      ∃ e, columnType s (field ++ "." ++ nested) none = .error e) := by
  obtain ⟨base, hbase, rfl⟩ := fieldEnd_of_columnType h
  rw [columnType_none, fieldEnd_append hbase]
  refine ⟨fun hkind hrep => ?_, fun hkind hrep => ?_, fun hkind => ?_⟩
  · obtain ⟨struct, hf⟩ := kind_eq_struct.1 hkind
    rw [columnType_nested hbase hf, Resolved.onward_of_fields hrep hf]
    have hrep' : base.repeated = false := hrep
    refine toOption_eq_of_ok_iff fun result => ?_
    simp only [map_eq_ok, mapError_eq_ok, hrep', Bool.or_false]
    exact exists_congr fun inner => and_congr Schema.walk_ok_congr Iff.rfl
  · obtain ⟨struct, hf⟩ := kind_eq_struct.1 hkind
    have hrep' : base.repeated = true := hrep
    refine ⟨by rw [Resolved.onward_of_repeated hrep']; rfl, base, struct, hbase, hf, ?_⟩
    rw [columnType_nested hbase hf]
    simp only [hrep', Bool.or_true]
  · have hf : base.type.fields? = none := by
      by_contra hsome
      exact hkind (kind_eq_struct.2 (Option.ne_none_iff_exists'.1 hsome))
    refine ⟨columnType_nested_scalar hbase hf, ?_⟩
    obtain ⟨e, he⟩ := Resolved.onward_of_no_fields _ (dotted _) hf
    exact ⟨_, by rw [he]; rfl⟩

/-- A nested path into a struct, into a repeated struct and into a number. -/
theorem columnType_nestedField_sample :
    (columnType .sample "campaign.network" none = .ok ⟨.struct, "Network", false⟩ ∧
      (columnType .sample "campaign.network" (some (.nestedField "search"))).toOption =
        (columnType .sample "campaign.network.search" none).toOption) ∧
    (columnType .sample "campaign.caps" none = .ok ⟨.struct, "Cap", true⟩ ∧
      columnType .sample "campaign.caps.limit" none =
        .error (.schema (.repeatedInMiddle "caps" "caps.limit"))) ∧
    columnType .sample "campaign.id" none = .ok ⟨.primitive, "int64", false⟩ ∧
      columnType .sample "campaign.id" (some (.nestedField "value")) =
        .error (.nestedPathOnScalar "campaign.id" .primitive "int64") := by
  have hnetwork : columnType .sample "campaign.network" none = .ok ⟨.struct, "Network", false⟩ := rfl
  have hcaps : columnType .sample "campaign.caps" none = .ok ⟨.struct, "Cap", true⟩ := rfl
  have hid : columnType .sample "campaign.id" none = .ok ⟨.primitive, "int64", false⟩ := rfl
  exact ⟨⟨hnetwork, (columnType_nestedField hnetwork "search").1 rfl rfl⟩,
    ⟨hcaps, ((columnType_nestedField hcaps "limit").2.1 rfl rfl).1⟩,
    hid, ((columnType_nestedField hid "value").2.2 (by decide)).1⟩

end Query
end ReportQuery
