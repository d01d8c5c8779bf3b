import Mathlib.Data.List.Perm.Basic
import Mathlib.Data.String.Basic
import ReportQuery.Proofs.Entries
/-!
# Entries in ascending order

The maps of schemas and data values keep their names in ascending order (`Ascending`). An
insertion keeps the order (`Ascending.insert`). There is only one such order, so entries that are
inserted one by one end up in the same list, whatever order they come in
(`ordered_of_perm`).
-/

namespace ReportQuery.Entries

variable {α β : Type} {name : String} {a : α} {entries others sorted : Entries α}
variable {entry : String × α}

/-- The names stand in ascending order, and none twice. -/
def Ascending (entries : Entries α) : Prop := entries.names.Pairwise (· < ·)

instance (entries : Entries α) : Decidable entries.Ascending :=
  inferInstanceAs (Decidable (List.Pairwise _ _))

theorem ascending_nil : Ascending ([] : Entries α) := List.Pairwise.nil

theorem ascending_cons :
    Ascending (entry :: entries) ↔ (∀ n ∈ entries.names, entry.1 < n) ∧ entries.Ascending :=
  List.pairwise_cons

theorem Ascending.nodup (h : entries.Ascending) : entries.names.Nodup :=
  List.Pairwise.imp (fun hlt => ne_of_lt hlt) h

/-- The order is one of names. -/
theorem Ascending.map (h : entries.Ascending) (f : String → α → β) :
    Ascending (entries.map fun entry => (entry.1, f entry.1 entry.2)) := by
  rw [Ascending, names, List.map_map]
  exact h

theorem mem_insert (h : entry ∈ entries.insert name a) : entry = (name, a) ∨ entry ∈ entries := by
  induction entries with
  | nil => exact .inl (List.mem_singleton.1 h)
  | cons first rest ih =>
    rw [insert] at h
    split at h
    · exact List.mem_cons.1 h
    · split at h
      · exact (List.mem_cons.1 h).imp_right (List.mem_cons_of_mem _)
      · rcases List.mem_cons.1 h with rfl | h
        · exact .inr List.mem_cons_self
        · exact (ih h).imp_right (List.mem_cons_of_mem _)

theorem mem_names_insert {n : String} (h : n ∈ (entries.insert name a).names) :
    n = name ∨ n ∈ entries.names := by
  obtain ⟨entry, hentry, rfl⟩ := List.mem_map.1 h
  rcases mem_insert hentry with rfl | hentry
  · exact .inl rfl
  · exact .inr (List.mem_map_of_mem hentry)

/-- What holds of all values holds of them after an insertion. -/
theorem forall_mem_insert {P : α → Prop} (h : ∀ entry ∈ entries, P entry.2) (ha : P a) :
    ∀ entry ∈ entries.insert name a, P entry.2 := by
  intro entry hentry
  rcases mem_insert hentry with rfl | hentry
  · exact ha
  · exact h entry hentry

/-- **An insertion keeps the order.** -/
theorem Ascending.insert (h : entries.Ascending) : (entries.insert name a).Ascending := by
  induction entries with
  | nil => exact List.pairwise_singleton _ _
  | cons first rest ih =>
    obtain ⟨hfirst, hrest⟩ := ascending_cons.1 h
    rw [Entries.insert]
    split
    · next hlt =>
      refine ascending_cons.2 ⟨fun n hn => ?_, h⟩
      rcases List.mem_cons.1 hn with rfl | hn
      · exact hlt
      · exact hlt.trans (hfirst n hn)
    · next hge =>
      split
      · next heq =>
        subst heq
        exact ascending_cons.2 ⟨hfirst, hrest⟩
      · next hne =>
        refine ascending_cons.2 ⟨fun n hn => ?_, ih hrest⟩
        rcases mem_names_insert hn with rfl | hn
        · exact lt_of_le_of_ne (not_lt.1 hge) hne
        · exact hfirst n hn

/-- A new entry is put somewhere among the others. -/
theorem insert_perm (h : name ∉ entries.names) :
    (entries.insert name a).Perm ((name, a) :: entries) := by
  induction entries with
  | nil => exact .refl _
  | cons first rest ih =>
    obtain ⟨hne, hrest⟩ := List.ne_and_not_mem_of_not_mem_cons h
    rw [insert]
    split
    · exact .refl _
    · rw [if_neg (Ne.symm hne)]
      exact ((ih hrest).cons first).trans (.swap _ _ _)

/-! ## Inserting one by one -/

/-- Inserts entries one by one into those that are sorted already. -/
def insertAll (sorted entries : Entries α) : Entries α :=
  entries.foldl (fun sorted e => insert e.1 e.2 sorted) sorted

theorem insertAll_cons :
    insertAll sorted (entry :: entries) = insertAll (sorted.insert entry.1 entry.2) entries := rfl

theorem Ascending.insertAll (h : sorted.Ascending) : (insertAll sorted entries).Ascending := by
  induction entries generalizing sorted with
  | nil => exact h
  | cons entry rest ih => exact ih h.insert

theorem insertAll_perm (h : (names (sorted ++ entries)).Nodup) :
    (insertAll sorted entries).Perm (sorted ++ entries) := by
  induction entries generalizing sorted with
  | nil =>
    rw [List.append_nil]
    exact .refl _
  | cons entry rest ih =>
    have hmiddle : (sorted ++ entry :: rest).Perm (entry :: sorted ++ rest) := List.perm_middle
    rw [names, (hmiddle.map Prod.fst).nodup_iff] at h
    have hnew : entry.1 ∉ sorted.names := by
      intro hmem
      obtain ⟨e, he, hname⟩ := List.mem_map.1 hmem
      exact (List.nodup_cons.1 h).1 (List.mem_map.2 ⟨e, List.mem_append_left _ he, hname⟩)
    have hinsert : (sorted.insert entry.1 entry.2).Perm (entry :: sorted) := insert_perm hnew
    have happend := hinsert.append_right rest
    refine (ih ?_).trans (happend.trans hmiddle.symm)
    rw [names, (happend.map Prod.fst).nodup_iff]
    exact h

/-- **There is one ascending order.** Entries that are inserted one by one end up in it. -/
theorem insertAll_of_perm (h : entries.Ascending) (hperm : others.Perm entries) :
    insertAll [] others = entries := by
  have hnodup : (names others).Nodup := (hperm.map Prod.fst).nodup_iff.2 h.nodup
  have hinserted : (insertAll [] others).Perm ([] ++ others) := insertAll_perm hnodup
  have hsame : (insertAll [] others).Perm entries := hinserted.trans hperm
  have hlt : ∀ e ∈ insertAll [] others, ∀ e' ∈ entries, e.1 < e'.1 → e'.1 < e.1 → e = e' :=
    fun e _ e' _ hlt hgt => absurd hgt (lt_asymm hlt)
  exact List.Perm.eq_of_pairwise (fun e e' he he' => hlt e he e' he')
    (List.pairwise_map.1 ascending_nil.insertAll) (List.pairwise_map.1 h) hsame

end ReportQuery.Entries
