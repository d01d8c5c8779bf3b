import ReportQuery.Proofs.Schema.Walk
/-!
# When a field path has a type

A path has a type when its segments but the last lead from struct to struct (`Leads`)
and the last one names a field there whose reference resolves. A path that has none
fails at its first segment that cannot be taken, and `Refuses` says with which error;
its cases exclude each other and stand in the order in which they are looked at. The
main statement is `fieldType_ends_or_fails`.

Each follows the path by one induction from what one step does: `innerStep_eq_ok` and
`innerStep_eq_error` for a segment with segments after it, `lastStep_eq_ok` and
`lastStep_eq_error` for the last.
-/

namespace ReportQuery.Schema

open Outcome

variable {s : Schema} {root current next struct : StructType} {segment reference : String}
variable {pathText : String} {path rest : List String} {r : Resolved} {e : SchemaError}

/-- The struct that segments lead to: each names a field of the struct reached so far, one
that is not repeated and whose type, resolved where the field stands, has fields. -/
inductive Leads (s : Schema) : StructType → List String → StructType → Prop
  | here {struct : StructType} : Leads s struct [] struct
  | on {current next struct : StructType} {segment : String} {rest : List String} {field : Field}
      {type : TypeRef} : current.fields.find? segment = some field → field.isRepeated = false →
      s.resolveType current field.type = .ok type → type.fields? = some next →
      Leads s next rest struct → Leads s current (segment :: rest) struct

/-- Why a segment cannot be taken from a struct, with the segments `rest` after it. The
last segment of a path may name a repeated field, and one whose type has no fields. -/
inductive Refuses (s : Schema) (path : String) (current : StructType) (segment : String)
    (rest : List String) : SchemaError → Prop
  | unknownField : current.fields.find? segment = none →
      Refuses s path current segment rest (.unknownField current.name segment path)
  | repeatedInMiddle {field : Field} : current.fields.find? segment = some field → rest ≠ [] →
      field.isRepeated = true →
      Refuses s path current segment rest (.repeatedInMiddle segment path)
  | unresolved {field : Field} {e : SchemaError} : current.fields.find? segment = some field →
      (rest ≠ [] → field.isRepeated = false) → s.resolveType current field.type = .error e →
      Refuses s path current segment rest e
  | primitiveInMiddle {field : Field} {p : Primitive} :
      current.fields.find? segment = some field → rest ≠ [] → field.isRepeated = false →
      s.resolveType current field.type = .ok (.primitive p) →
      Refuses s path current segment rest (.primitiveInMiddle segment path p.name)
  | enumInMiddle {field : Field} {enum : EnumType} :
      current.fields.find? segment = some field → rest ≠ [] → field.isRepeated = false →
      s.resolveType current field.type = .ok (.enum enum) →
      Refuses s path current segment rest (.enumInMiddle segment path enum.name)

/-- The end of a path at its last segment: the type of the field that the segment names, and
the repeated mark of that field. -/
def EndsAt (s : Schema) (current : StructType) (segment : String) (r : Resolved) : Prop :=
  ∃ field, current.fields.find? segment = some field ∧
    s.resolveType current field.type = .ok r.type ∧ r.repeated = field.isRepeated

/-! ## One step -/

theorem innerStep_eq_ok : s.innerStep pathText current segment = .ok next ↔
    ∃ field type, current.fields.find? segment = some field ∧ field.isRepeated = false ∧
      s.resolveType current field.type = .ok type ∧ type.fields? = some next := by
  rw [innerStep]
  cases hfield : current.fields.find? segment with
  | none => simp
  | some field =>
    cases hrepeated : field.isRepeated with
    | true => simp [hrepeated]
    | false =>
      cases htype : s.resolveType current field.type with
      | error e => simp [hrepeated, htype]
      | ok type => cases type <;> simp [hrepeated, htype, TypeRef.fields?]

theorem innerStep_eq_error (hrest : rest ≠ []) :
    s.innerStep pathText current segment = .error e ↔
      Refuses s pathText current segment rest e := by
  constructor
  · intro h
    rw [innerStep] at h
    cases hfield : current.fields.find? segment with
    | none =>
      rw [hfield] at h
      cases h
      exact .unknownField hfield
    | some field =>
      cases hrepeated : field.isRepeated with
      | true =>
        simp only [hfield, hrepeated, if_true, Except.error.injEq] at h
        subst h
        exact .repeatedInMiddle hfield hrest hrepeated
      | false =>
        cases htype : s.resolveType current field.type with
        | error cause =>
          simp only [hfield, hrepeated, htype, Bool.false_eq_true, if_false, Except.error.injEq] at h
          subst h
          exact .unresolved hfield (fun _ => hrepeated) htype
        | ok type =>
          simp only [hfield, hrepeated, htype, Bool.false_eq_true, if_false] at h
          cases type with
          | primitive p =>
            cases h
            exact .primitiveInMiddle hfield hrest hrepeated htype
          | enum enum =>
            cases h
            exact .enumInMiddle hfield hrest hrepeated htype
          | struct found => cases h
          | resource found => cases h
  · intro h
    rw [innerStep]
    cases h with
    | unknownField hfield => simp [hfield]
    | repeatedInMiddle hfield _ hrepeated => simp [hfield, hrepeated]
    | unresolved hfield hrepeated htype => simp [hfield, hrepeated hrest, htype]
    | primitiveInMiddle hfield _ hrepeated htype => simp [hfield, hrepeated, htype]
    | enumInMiddle hfield _ hrepeated htype => simp [hfield, hrepeated, htype]

theorem lastStep_eq_ok : s.lastStep pathText current segment = .ok r ↔ EndsAt s current segment r := by
  rw [lastStep, EndsAt]
  cases hfield : current.fields.find? segment with
  | none => simp
  | some field =>
    simp only [map_eq_ok, Option.some.injEq, exists_eq_left']
    constructor
    · rintro ⟨type, htype, rfl⟩
      exact ⟨htype, rfl⟩
    · rintro ⟨htype, hrepeated⟩
      exact ⟨r.type, htype, by rw [← hrepeated]⟩

theorem lastStep_eq_error : s.lastStep pathText current segment = .error e ↔
    Refuses s pathText current segment [] e := by
  rw [lastStep]
  constructor
  · intro h
    cases hfield : current.fields.find? segment with
    | none =>
      rw [hfield] at h
      cases h
      exact .unknownField hfield
    | some field =>
      cases htype : s.resolveType current field.type with
      | error cause =>
        simp only [hfield, htype, Except.map, Except.error.injEq] at h
        subst h
        exact .unresolved hfield (fun hne => absurd rfl hne) htype
      | ok type => simp [hfield, htype, Except.map] at h
  · intro h
    cases h with
    | unknownField hfield => simp [hfield]
    | repeatedInMiddle _ hne _ => exact absurd rfl hne
    | unresolved hfield _ htype => simp [hfield, htype, Except.map]
    | primitiveInMiddle _ hne _ _ => exact absurd rfl hne
    | enumInMiddle _ hne _ _ => exact absurd rfl hne

/-! ## The whole path -/

/-- A path ends where its last segment does, in the struct that the others lead to. -/
theorem walk_eq_ok : s.walk pathText root path = .ok r ↔
    ∃ front last struct, path = front ++ [last] ∧ Leads s root front struct ∧
      EndsAt s struct last r := by
  induction path generalizing root with
  | nil => simp [walk]
  | cons segment rest ih =>
    by_cases hrest : rest = []
    · subst hrest
      change s.lastStep pathText root segment = .ok r ↔ _
      rw [lastStep_eq_ok]
      constructor
      · exact fun hend => ⟨[], segment, root, rfl, .here, hend⟩
      · rintro ⟨front, last, struct, hpath, hleads, hend⟩
        obtain ⟨rfl, rfl⟩ : front = [] ∧ last = segment := by
          cases front with
          | nil => simpa using hpath.symm
          | cons first front => simp at hpath
        cases hleads
        exact hend
    · rw [walk_cons hrest, bind_eq_ok]
      constructor
      · rintro ⟨next, hstep, hwalk⟩
        obtain ⟨field, type, hfield, hrepeated, htype, hnext⟩ := innerStep_eq_ok.1 hstep
        obtain ⟨front, last, struct, rfl, hleads, hend⟩ := ih.1 hwalk
        exact ⟨segment :: front, last, struct, rfl, .on hfield hrepeated htype hnext hleads, hend⟩
      · rintro ⟨front, last, struct, hpath, hleads, hend⟩
        cases hleads with
        | here => exact absurd (List.cons.inj hpath).2 hrest
        | on hfield hrepeated htype hnext hleads =>
          obtain ⟨rfl, hrest'⟩ := List.cons.inj hpath
          exact ⟨_, innerStep_eq_ok.2 ⟨_, _, hfield, hrepeated, htype, hnext⟩,
            ih.2 ⟨_, last, struct, hrest', hleads, hend⟩⟩

/-- A path fails at its first segment that cannot be taken. -/
theorem walk_eq_error (hpath : path ≠ []) : s.walk pathText root path = .error e ↔
    ∃ front segment rest struct, path = front ++ segment :: rest ∧ Leads s root front struct ∧
      Refuses s pathText struct segment rest e := by
  induction path generalizing root with
  | nil => exact absurd rfl hpath
  | cons first rest ih =>
    by_cases hrest : rest = []
    · subst hrest
      change s.lastStep pathText root first = .error e ↔ _
      rw [lastStep_eq_error]
      constructor
      · exact fun hrefuses => ⟨[], first, [], root, rfl, .here, hrefuses⟩
      · rintro ⟨front, segment, rest, struct, heq, hleads, hrefuses⟩
        obtain ⟨rfl, rfl, rfl⟩ : front = [] ∧ segment = first ∧ rest = [] := by
          cases front with
          | nil => simpa [eq_comm] using heq
          | cons _ front => simp at heq
        cases hleads
        exact hrefuses
    · rw [walk_cons hrest, bind_eq_error, innerStep_eq_error hrest]
      constructor
      · rintro (hrefuses | ⟨next, hstep, hwalk⟩)
        · exact ⟨[], first, rest, root, rfl, .here, hrefuses⟩
        · obtain ⟨field, type, hfield, hrepeated, htype, hnext⟩ := innerStep_eq_ok.1 hstep
          obtain ⟨front, segment, after, struct, rfl, hleads, hrefuses⟩ := (ih hrest).1 hwalk
          exact ⟨first :: front, segment, after, struct, rfl,
            .on hfield hrepeated htype hnext hleads, hrefuses⟩
      · rintro ⟨front, segment, after, struct, heq, hleads, hrefuses⟩
        cases hleads with
        | here =>
          obtain ⟨rfl, rfl⟩ := List.cons.inj heq
          exact .inl hrefuses
        | on hfield hrepeated htype hnext hleads =>
          obtain ⟨rfl, hrest'⟩ := List.cons.inj heq
          exact .inr ⟨_, innerStep_eq_ok.2 ⟨_, _, hfield, hrepeated, htype, hnext⟩,
            (ih hrest).2 ⟨_, segment, after, struct, hrest', hleads, hrefuses⟩⟩

/-! ## The empty path -/

/-- No reference fails for want of a path. -/
theorem resolveType_ne_emptyPath (name : String) :
    s.resolveType current reference ≠ .error (.emptyPath name) := by
  have hstruct (types : Entries StructType) (text : List Char) :
      qualifiedStruct types current reference text ≠ .error (.emptyPath name) := by
    rw [qualifiedStruct]
    repeat' split
    all_goals simp
  intro h
  rw [resolveType] at h
  split at h
  · cases h
  · split at h
    · revert h
      rw [qualifiedEnum]
      repeat' split
      all_goals simp
    · split at h
      · next rest _ =>
        cases hfound : qualifiedStruct s.common current reference rest with
        | ok found => simp [hfound, Except.map] at h
        | error cause =>
          simp only [hfound, Except.map, Except.error.injEq] at h
          exact hstruct _ _ (hfound.trans (congrArg _ h))
      · split at h
        · next rest _ =>
          cases hfound : qualifiedStruct s.resources current reference rest with
          | ok found => simp [hfound, Except.map] at h
          | error cause =>
            simp only [hfound, Except.map, Except.error.injEq] at h
            exact hstruct _ _ (hfound.trans (congrArg _ h))
        · revert h
          rw [shortName]
          repeat' split
          all_goals simp

/-- No segment is refused for want of a path. -/
theorem Refuses.ne_emptyPath (h : Refuses s pathText current segment rest e) (name : String) :
    e ≠ .emptyPath name := by
  rintro rfl
  cases h with
  | unresolved _ _ htype => exact resolveType_ne_emptyPath name htype

/-- **When a field path has a type, and why it has none.** It has one exactly when it is not
empty, its segments but the last lead on from struct to struct, and the last names a field
of the struct reached whose reference resolves; the type is that of this field, repeated as
the field is. Otherwise the error is that of the first segment that cannot be taken. Only
the empty path fails as empty. -/
theorem fieldType_ends_or_fails (s : Schema) (root : StructType) (path : List String) :
    (∀ r, s.fieldType root path = .ok r ↔
      ∃ front last struct, path = front ++ [last] ∧ Leads s root front struct ∧
        EndsAt s struct last r) ∧
    (∀ e, s.fieldType root path = .error e ↔
      (path = [] ∧ e = .emptyPath root.name) ∨
        ∃ front segment rest struct, path = front ++ segment :: rest ∧ Leads s root front struct ∧
          Refuses s (dotted path) struct segment rest e) ∧
    ((∃ name, s.fieldType root path = .error (.emptyPath name)) ↔ path = []) := by
  have herror (e : SchemaError) : s.fieldType root path = .error e ↔
      (path = [] ∧ e = .emptyPath root.name) ∨
        ∃ front segment rest struct, path = front ++ segment :: rest ∧ Leads s root front struct ∧
          Refuses s (dotted path) struct segment rest e := by
    rw [fieldType]
    by_cases hpath : path = []
    · subst hpath
      simp [walk, eq_comm]
    · rw [walk_eq_error hpath]
      simp [hpath]
  refine ⟨fun r => walk_eq_ok, herror, ?_⟩
  constructor
  · rintro ⟨name, h⟩
    rcases (herror _).1 h with ⟨hpath, -⟩ | ⟨_, _, _, _, -, -, hrefuses⟩
    · exact hpath
    · exact absurd rfl (hrefuses.ne_emptyPath name)
  · intro hpath
    exact ⟨root.name, (herror _).2 (.inl ⟨hpath, rfl⟩)⟩

end ReportQuery.Schema
