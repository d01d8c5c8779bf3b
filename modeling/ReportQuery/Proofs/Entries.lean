import Mathlib.Data.List.Nodup
import ReportQuery.Entries
/-!
# Look-ups by name

The value that is found for a name is that of an entry, and a look-up goes through
appended lists, changed values, insertions and single values that are set. Where no name
occurs twice, every entry is found (`find?_of_mem`), and the order of the entries does not
matter (`find?_perm`).
-/

namespace ReportQuery.Entries

variable {α β : Type} {name : String} {a : α} {entries others : Entries α}

/-- A value is smaller than the entries that it stands in. -/
theorem sizeOf_lt_of_mem [SizeOf α] {entry : String × α} (h : entry ∈ entries) :
    sizeOf entry.2 < sizeOf entries := by
  obtain ⟨n, a⟩ := entry
  have hlt := List.sizeOf_lt_of_mem h
  rw [Prod.mk.sizeOf_spec] at hlt
  dsimp only
  omega

theorem mem_of_find? (h : entries.find? name = some a) : (name, a) ∈ entries := by
  induction entries with
  | nil => cases h
  | cons entry rest ih =>
    obtain ⟨n, b⟩ := entry
    rw [Entries.find?] at h
    split at h
    · next heq =>
      cases h
      simp [heq]
    · exact List.mem_cons_of_mem _ (ih h)

/-- A name without an entry is not found. -/
theorem find?_eq_none : entries.find? name = none ↔ name ∉ entries.names := by
  induction entries with
  | nil => simp [find?, names]
  | cons entry rest ih =>
    obtain ⟨n, b⟩ := entry
    rw [find?, names, List.map_cons, List.mem_cons, ← names]
    split
    · next hname => simp [hname]
    · next hname => simp [ih, Ne.symm hname]

theorem has_eq_true : entries.has name = true ↔ name ∈ entries.names := by
  rw [has, Option.isSome_iff_ne_none, ne_eq, find?_eq_none, not_not]

theorem has_eq_false : entries.has name = false ↔ name ∉ entries.names := by
  rw [← Bool.not_eq_true, has_eq_true]

/-- Every entry is found where no name occurs twice. -/
theorem find?_of_mem (hnodup : entries.names.Nodup) (h : (name, a) ∈ entries) :
    entries.find? name = some a := by
  induction entries with
  | nil => cases h
  | cons entry rest ih =>
    obtain ⟨n, b⟩ := entry
    rw [names, List.map_cons, List.nodup_cons] at hnodup
    rw [find?]
    rcases List.mem_cons.1 h with heq | hmem
    · cases heq
      rw [if_pos rfl]
    · have hne : n ≠ name := by
        rintro rfl
        exact hnodup.1 (List.mem_map.2 ⟨_, hmem, rfl⟩)
      rw [if_neg hne, ih hnodup.2 hmem]

/-- **The order of entries with different names does not matter.** -/
theorem find?_perm (hnodup : entries.names.Nodup) (h : entries.Perm others) :
    entries.find? name = others.find? name := by
  have hnodup' : others.names.Nodup := (h.map Prod.fst).nodup_iff.1 hnodup
  cases hfound : others.find? name with
  | none =>
    rw [find?_eq_none] at hfound ⊢
    rwa [names, (h.map Prod.fst).mem_iff]
  | some b => exact find?_of_mem hnodup (h.mem_iff.2 (mem_of_find? hfound))

/-- The first list counts. -/
theorem find?_append :
    find? name (entries ++ others) = (find? name entries).or (find? name others) := by
  induction entries with
  | nil => rfl
  | cons entry rest ih =>
    rw [List.cons_append, find?, find?, ih]
    split <;> rfl

/-- Values are found where they stand. -/
theorem find?_map (f : String → α → β) :
    find? name (entries.map fun entry => (entry.1, f entry.1 entry.2)) =
      (find? name entries).map (f name) := by
  induction entries with
  | nil => rfl
  | cons entry rest ih =>
    rw [List.map_cons, find?, find?, ih]
    split
    · next heq => rw [heq, Option.map_some]
    · rfl

/-- An insertion changes the look-up of its own name only, whether or not the names are in
order. -/
theorem find?_insert {key : String} :
    find? name (entries.insert key a) = if key = name then some a else find? name entries := by
  induction entries with
  | nil => rfl
  | cons entry rest ih =>
    obtain ⟨n, b⟩ := entry
    rw [insert]
    split
    · rfl
    · split
      · next hn =>
        rw [hn, find?, find?]
        split <;> rfl
      · next hn =>
        rw [find?, find?, ih]
        split
        · next hname => rw [if_neg fun heq => hn (hname.trans heq.symm)]
        · rfl

/-- Setting a value changes the look-up of its own name only. -/
theorem find?_set {key : String} :
    find? name (entries.set key a) = if key = name then some a else find? name entries := by
  induction entries with
  | nil => rfl
  | cons entry rest ih =>
    obtain ⟨n, b⟩ := entry
    rw [set]
    split
    · next hn =>
      rw [hn, find?, find?]
      split <;> rfl
    · next hn =>
      rw [find?, find?, ih]
      split
      · next hname => rw [if_neg fun heq => hn (hname.trans heq.symm)]
      · rfl

theorem find?_set_self : find? name (entries.set name a) = some a := by
  rw [find?_set, if_pos rfl]

/-- The entries are the old ones and that of the value that is set. -/
theorem mem_set {key : String} {entry : String × α} (h : entry ∈ entries.set key a) :
    entry = (key, a) ∨ entry ∈ entries := by
  induction entries with
  | nil => exact .inl (List.mem_singleton.1 h)
  | cons first rest ih =>
    obtain ⟨n, b⟩ := first
    rw [set] at h
    split at h
    · next hn =>
      rcases List.mem_cons.1 h with rfl | hmem
      · exact .inl (by rw [hn])
      · exact .inr (List.mem_cons_of_mem _ hmem)
    · rcases List.mem_cons.1 h with rfl | hmem
      · exact .inr List.mem_cons_self
      · exact (ih hmem).imp id (List.mem_cons_of_mem _)

end ReportQuery.Entries
