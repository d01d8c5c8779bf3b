/-!
# Outcomes of checked computations

When a chain of checks succeeds, and when two checks succeed alike. A proof takes
a computation apart by `bind_eq_ok` and never unfolds the monad.
-/

namespace ReportQuery.Outcome

variable {ε ε' α β : Type} {x y : Except ε α} {f : α → Except ε β} {a : α} {b : β}

/-- A chain succeeds when its first check does and the rest does on its result. -/
theorem bind_eq_ok : (x >>= f) = .ok b ↔ ∃ a, x = .ok a ∧ f a = .ok b := by
  cases x with
  | error e => exact ⟨fun h => (by cases h), fun ⟨_, h, _⟩ => by cases h⟩
  | ok a => exact ⟨fun h => ⟨a, rfl, h⟩, fun ⟨_, h, hf⟩ => by cases h; exact hf⟩

/-- A chain fails where its first check does, or else where the rest does. -/
theorem bind_eq_error {e : ε} :
    (x >>= f) = .error e ↔ x = .error e ∨ ∃ a, x = .ok a ∧ f a = .error e := by
  cases x with
  | error e' =>
    constructor
    · intro h
      cases h
      exact .inl rfl
    · rintro (h | ⟨_, h, _⟩)
      · cases h
        rfl
      · cases h
  | ok a =>
    constructor
    · exact fun h => .inr ⟨a, rfl, h⟩
    · rintro (h | ⟨_, h, hf⟩)
      · cases h
      · cases h
        exact hf

theorem map_eq_ok {g : α → β} : x.map g = .ok b ↔ ∃ a, x = .ok a ∧ g a = b := by
  cases x with
  | error e => exact ⟨fun h => (by cases h), fun ⟨_, h, _⟩ => by cases h⟩
  | ok a => simp [Except.map]

@[simp] theorem mapError_eq_ok {g : ε → ε'} : x.mapError g = .ok a ↔ x = .ok a := by
  cases x with
  | error e => exact ⟨fun h => (by cases h), fun h => by cases h⟩
  | ok a => exact ⟨fun h => by cases h; rfl, fun h => by cases h; rfl⟩

theorem mapError_eq_error {g : ε → ε'} {e : ε'} :
    x.mapError g = .error e ↔ ∃ e', x = .error e' ∧ g e' = e := by
  cases x with
  | error e' =>
    constructor
    · exact fun h => ⟨e', rfl, Except.error.inj h⟩
    · rintro ⟨_, h, hg⟩
      cases h
      exact congrArg Except.error hg
  | ok a => exact ⟨fun h => (by cases h), fun ⟨_, h, _⟩ => by cases h⟩

/-- A check of all entries of a list fails where that of one entry does. -/
theorem exists_of_mapM_eq_error {e : ε} {xs : List α} (h : xs.mapM f = .error e) :
    ∃ a ∈ xs, f a = .error e := by
  induction xs with
  | nil => cases h
  | cons a xs ih =>
    rw [List.mapM_cons] at h
    rcases bind_eq_error.1 h with h | ⟨b, -, h⟩
    · exact ⟨a, List.mem_cons_self, h⟩
    · rcases bind_eq_error.1 h with h | ⟨_, _, h⟩
      · obtain ⟨a', hmem, h⟩ := ih h
        exact ⟨a', List.mem_cons_of_mem a hmem, h⟩
      · cases h

theorem toOption_eq_some : x.toOption = some a ↔ x = .ok a := by
  cases x <;> simp [Except.toOption]

/-- Two checks that succeed alike have the same result, if any. -/
theorem toOption_eq_of_ok_iff {z : Except ε' α} (h : ∀ a, x = .ok a ↔ z = .ok a) :
    x.toOption = z.toOption := by
  cases x with
  | ok a => rw [(h a).1 rfl]; rfl
  | error e =>
    cases z with
    | error e' => rfl
    | ok a => cases (h a).2 rfl

end ReportQuery.Outcome
