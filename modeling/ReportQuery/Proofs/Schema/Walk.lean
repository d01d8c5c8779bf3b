import ReportQuery.Proofs.Outcome
import ReportQuery.Proofs.Text.Split
import ReportQuery.Schema.Resolution
/-!
# Walks compose

A walk over a path is a walk over its front and, from where that ends, a walk
over the rest. Where the front ends matters twice: a field that is repeated, or
whose type has no fields, can end a path but cannot be passed (`Resolved.onward`).
The main statement is `walk_append`. Errors name the whole path, so two walks over
one list of segments succeed alike whatever the path is called (`walk_ok_congr`).
-/

namespace ReportQuery

open Text Outcome

/-- The segments of a text with a dot in it are the segments before it and those
after it. -/
theorem segments_append_dot (front rest : String) :
    segments (front ++ "." ++ rest) = segments front ++ segments rest := by
  have h : (front ++ "." ++ rest).toList = front.toList ++ '.' :: rest.toList := by
    simp
  rw [segments, segments, segments, h, cells_append, List.map_append]

@[simp] theorem segments_ne_nil (text : String) : segments text ≠ [] := by
  simp [segments]

/-- The struct that a path goes on in after its segment `segment` ended at a type. -/
def Resolved.onward (segment path : String) (r : Resolved) : Except SchemaError StructType :=
  if r.repeated then .error (.repeatedInMiddle segment path)
  else match r.type with
    | .primitive p => .error (.primitiveInMiddle segment path p.name)
    | .enum e => .error (.enumInMiddle segment path e.name)
    | .struct struct | .resource struct => .ok struct

namespace Resolved

variable {r : Resolved} {segment path : String} {struct : StructType}

theorem onward_of_repeated (h : r.repeated = true) :
    r.onward segment path = .error (.repeatedInMiddle segment path) := by
  rw [onward, if_pos h]

theorem onward_of_fields (h : r.repeated = false) (hf : r.type.fields? = some struct) :
    r.onward segment path = .ok struct := by
  rw [onward, if_neg (by simp [h])]
  cases ht : r.type <;> simp_all [TypeRef.fields?]

theorem onward_of_no_fields (segment path : String) (hf : r.type.fields? = none) :
    ∃ e, r.onward segment path = .error e := by
  rw [onward]
  split
  · exact ⟨_, rfl⟩
  · cases ht : r.type <;> simp_all [TypeRef.fields?]

end Resolved

namespace Schema

variable {s : Schema} {path path' segment : String} {current next : StructType}
variable {init rest : List String} {r : Resolved}

/-- A segment with segments after it is an inner step. -/
theorem walk_cons (h : rest ≠ []) :
    s.walk path current (segment :: rest) =
      s.innerStep path current segment >>= fun next => s.walk path next rest := by
  cases rest with
  | nil => exact absurd rfl h
  | cons _ _ => rfl

/-- A walk that ends names at least one segment. -/
theorem ne_nil_of_walk (h : s.walk path current rest = .ok r) : rest ≠ [] := by
  rintro rfl
  cases h

/-- **An inner step is a last step that goes on.** The two differ only where the
reference does not resolve: an inner step looks at the repeated mark first. -/
theorem innerStep_of_lastStep (h : s.lastStep path' current segment = .ok r) :
    s.innerStep path current segment = r.onward segment path := by
  rw [lastStep] at h
  rw [innerStep]
  cases hf : current.fields.find? segment with
  | none => rw [hf] at h; cases h
  | some field =>
    rw [hf] at h
    obtain ⟨type, ht, rfl⟩ := map_eq_ok.1 h
    cases type <;> simp [Resolved.onward, ht]

/-! ## The name of the path

The text of the whole path is there for errors alone. -/

theorem lastStep_ok_congr :
    s.lastStep path current segment = .ok r ↔ s.lastStep path' current segment = .ok r := by
  rw [lastStep, lastStep]
  cases current.fields.find? segment <;> simp

theorem innerStep_ok_congr :
    s.innerStep path current segment = .ok next ↔ s.innerStep path' current segment = .ok next := by
  rw [innerStep, innerStep]
  cases current.fields.find? segment with
  | none => simp
  | some field =>
    by_cases hrep : field.isRepeated
    · simp [hrep]
    · cases ht : s.resolveType current field.type with
      | error e => simp [ht, hrep]
      | ok type => cases type <;> simp [ht, hrep]

/-- **A walk ends alike whatever its path is called.** -/
theorem walk_ok_congr :
    s.walk path current rest = .ok r ↔ s.walk path' current rest = .ok r := by
  induction rest generalizing current with
  | nil => simp [walk]
  | cons segment rest ih =>
    by_cases hrest : rest = []
    · subst hrest
      exact lastStep_ok_congr
    · rw [walk_cons hrest, walk_cons hrest, bind_eq_ok, bind_eq_ok]
      exact exists_congr fun next => and_congr innerStep_ok_congr ih

/-! ## Composition -/

/-- **Walks compose.** A path whose front ends at `r` is walked on from the struct
that `r` leads to, if it leads to one. -/
theorem walk_append (hrest : rest ≠ []) (h : s.walk path' current (init ++ [segment]) = .ok r) :
    s.walk path current (init ++ segment :: rest) =
      r.onward segment path >>= fun next => s.walk path next rest := by
  induction init generalizing current with
  | nil => rw [List.nil_append, walk_cons hrest, innerStep_of_lastStep h]
  | cons first init ih =>
    rw [List.cons_append, walk_cons (by simp), bind_eq_ok] at h
    obtain ⟨next, hnext, hwalk⟩ := h
    rw [List.cons_append, walk_cons (by simp), innerStep_ok_congr.1 hnext]
    exact ih hwalk

/-! ## A schema with one of everything

Its row selects a resource type that has fields of each kind, repeated and not. -/

/-- A small schema, for runs on fixed queries. -/
def sample : Schema :=
  (((Schema.empty "ads").withEnum "StatusEnum" "Status" ["ENABLED", "PAUSED"]).withCommon "Network"
    ⟨"", [("search", .single "bool")], []⟩).withResource "Campaign"
      ⟨"", [("caps", ⟨"Cap", true, none⟩), ("id", .single "int64"), ("labels", ⟨"string", true, none⟩),
        ("name", .single "string"), ("network", .single "ads.common.Network"),
        ("status", .single "ads.enums.StatusEnum.Status")],
        [("Cap", ⟨"Cap", [("limit", .single "int32")], []⟩)]⟩
    |>.withResourceRow "campaign" "Campaign"

end Schema
end ReportQuery
