import ReportQuery.Proofs.Outcome
import ReportQuery.Query.Compiled
/-!
# Faults of a query

Placeholders without a value are looked for before anything else, and no later check reports
them: not that of the select list (`isUnresolved_of_selectItems`), of the resource or of the
columns. So compilation reports names without a value just where the cleaned text has
placeholders of such names (`compile_unresolved_iff`).
-/

namespace ReportQuery

open Text Placeholder Outcome

/-- Whether an error is about placeholders without a value. -/
def QueryError.isUnresolved : QueryError → Bool
  | unresolvedParameters _ => true
  | _ => false

namespace Query

variable {s : Schema} {parameters : Entries String} {text query item : List Char} {index : Nat}
variable {e : QueryError} {names : List String} {field : String} {customizer : Option Customizer}

theorem isUnresolved_of_splitCustomizer (h : splitCustomizer item = .error e) :
    e.isUnresolved = false := by
  rw [splitCustomizer] at h
  split at h
  · split at h
    · cases h
    · cases h
      rfl
  · split at h
    · dsimp only at h
      split at h
      · cases h
        rfl
      · cases h
    · cases h

theorem isUnresolved_of_read (h : SelectItem.read index item = .error e) :
    e.isUnresolved = false := by
  rw [SelectItem.read] at h
  rcases bind_eq_error.1 h with h | ⟨⟨field, customizer⟩, -, h⟩
  · exact isUnresolved_of_splitCustomizer h
  · dsimp only at h
    split at h
    · cases h
      rfl
    · cases h

theorem isUnresolved_of_readItems {items : List (List Char)}
    (h : readItems index items = .error e) : e.isUnresolved = false := by
  induction items generalizing index with
  | nil => cases h
  | cons item rest ih =>
    rcases bind_eq_error.1 h with h | ⟨parsed, -, h⟩
    · exact isUnresolved_of_read h
    · rcases bind_eq_error.1 h with h | ⟨others, -, h⟩
      · exact ih h
      · cases h

theorem isUnresolved_of_selectItems (h : selectItems query = .error e) :
    e.isUnresolved = false := by
  rw [selectItems] at h
  split at h
  · cases h
    rfl
  · split at h
    · cases h
      rfl
    · exact isUnresolved_of_readItems h

theorem isUnresolved_of_schema {α : Type} {x : Except SchemaError α}
    (h : x.mapError .schema = .error e) : e.isUnresolved = false := by
  obtain ⟨cause, -, rfl⟩ := mapError_eq_error.1 h
  rfl

theorem isUnresolved_of_columnType (h : columnType s field customizer = .error e) :
    e.isUnresolved = false := by
  rw [columnType] at h
  rcases bind_eq_error.1 h with h | ⟨root, -, h⟩
  · exact isUnresolved_of_schema h
  · rcases bind_eq_error.1 h with h | ⟨base, -, h⟩
    · exact isUnresolved_of_schema h
    · split at h
      · split at h
        · cases h
          rfl
        · rcases bind_eq_error.1 h with h | ⟨inner, -, h⟩
          · exact isUnresolved_of_schema h
          · cases h
      · cases h

theorem isUnresolved_of_columns {selected : List SelectItem} (h : columns s selected = .error e) :
    e.isUnresolved = false := by
  obtain ⟨item, -, h⟩ := exists_of_mapM_eq_error h
  rcases bind_eq_error.1 h with h | ⟨type, -, h⟩
  · exact isUnresolved_of_columnType h
  · cases h

theorem isUnresolved_of_source (h : Query.source s query = .error e) : e.isUnresolved = false := by
  rw [Query.source] at h
  split at h
  · cases h
    rfl
  · rcases bind_eq_error.1 h with h | ⟨type, -, h⟩
    · exact isUnresolved_of_schema h
    · cases h

theorem normalize_eq_error :
    normalize parameters query = .error e ↔
      e = .unresolvedParameters (unknown anywhere parameters.has (cleaned query)) ∧
        unknown anywhere parameters.has (cleaned query) ≠ [] := by
  rw [normalize, fillIn]
  split
  · next hnone => simp [hnone]
  · next hsome =>
    refine ⟨fun h => ?_, fun h => by rw [h.1]⟩
    cases h
    exact ⟨rfl, hsome⟩

/-- **Which names compilation reports**: all that stand in the cleaned text and have no value. -/
theorem compile_unresolved_iff :
    compile s parameters text = .error (.unresolvedParameters names) ↔
      names = unknown anywhere parameters.has (cleaned (stripComments text)) ∧ names ≠ [] := by
  rw [compile]
  constructor
  · intro h
    rcases bind_eq_error.1 h with h | ⟨sent, -, h⟩
    · obtain ⟨heq, hne⟩ := normalize_eq_error.1 h
      have hnames := QueryError.unresolvedParameters.inj heq
      exact ⟨hnames, hnames ▸ hne⟩
    · -- no later check reports names without a value
      rcases bind_eq_error.1 h with h | ⟨selected, -, h⟩
      · cases isUnresolved_of_selectItems h
      · split at h
        · cases h
        · rcases bind_eq_error.1 h with h | ⟨source, -, h⟩
          · cases isUnresolved_of_source h
          · rcases bind_eq_error.1 h with h | ⟨cols, -, h⟩
            · cases isUnresolved_of_columns h
            · cases h
  · rintro ⟨hnames, hne⟩
    exact bind_eq_error.2 (.inl (normalize_eq_error.2
      ⟨congrArg QueryError.unresolvedParameters hnames, hnames ▸ hne⟩))

end Query
end ReportQuery
