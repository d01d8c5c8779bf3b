import ReportQuery.Proofs.Placeholder
import ReportQuery.Proofs.Query.Sent
/-!
# Filling in placeholders

The last pass over the text of a query puts values in the place of its placeholders. The text is cut
once, from left to right, and what is sent is put together from the segments of that cut
(`fillIn_of_cut`): values are not looked at again. If a placeholder has no value, the names without
one are all reported instead (`normalize_fills_or_reports`).
-/

namespace ReportQuery

open Text

namespace Placeholder

variable {parameters : Entries String} {name : List Char} {segments : List Segment}

/-- What a segment becomes: a placeholder becomes its value. -/
def Segment.image (parameters : Entries String) : Segment → List Char
  | .kept c => [c]
  | .placeholder name => ((parameters.find? (String.ofList name)).getD "").toList

/-- The names without a value, one for each of their placeholders, from left to right. -/
def missing (parameters : Entries String) (segments : List Segment) : List String :=
  segments.filterMap fun
    | .kept _ => none
    | .placeholder name =>
      if parameters.has (String.ofList name) then none else some (String.ofList name)

theorem missing_eq_nil_iff : missing parameters segments = [] ↔
    ∀ name, .placeholder name ∈ segments → parameters.has (String.ofList name) = true := by
  rw [missing, List.filterMap_eq_nil_iff]
  constructor
  · intro h name hname
    simpa using h _ hname
  · rintro h (c | name) hmem
    · rfl
    · simp [h name hmem]

end Placeholder

namespace Query

open Placeholder

variable {parameters : Entries String} {text : List Char} {segments : List Segment}

theorem unknown_of_cut (h : Cut (fun _ => true) none text segments) :
    Placeholder.unknown anywhere parameters.has text = distinct (missing parameters segments) := by
  rw [Placeholder.unknown, parts, ← behind_true, h.partsFrom_eq, List.filterMap_map, missing]
  refine congrArg _ (List.filterMap_congr fun segment _ => ?_)
  cases segment with
  | kept c => rfl
  | placeholder name => simp [Segment.part]

theorem filled_of_cut (h : Cut (fun _ => true) none text segments) :
    filled parameters text = segments.flatMap (Segment.image parameters) := by
  rw [filled, replace, parts, ← behind_true, h.partsFrom_eq, List.flatMap_map]
  refine congrArg segments.flatMap (funext fun segment => ?_)
  cases segment with
  | kept c => rfl
  | placeholder name => simp [Segment.part, Segment.image]

/-- **The segments of a text decide** what it is filled in with, or which names are reported. -/
theorem fillIn_of_cut (h : Cut (fun _ => true) none text segments) :
    fillIn parameters text =
      if missing parameters segments = [] then .ok (segments.flatMap (Segment.image parameters))
      else .error (.unresolvedParameters (distinct (missing parameters segments))) := by
  have hnil : distinct (missing parameters segments) = [] ↔ missing parameters segments = [] := by
    simp only [List.eq_nil_iff_forall_not_mem, mem_distinct]
  rw [fillIn, unknown_of_cut h, ← filled_of_cut h]
  split
  · next hdistinct =>
    rw [if_pos (hnil.1 hdistinct)]
    rfl
  · next hdistinct => rw [if_neg fun hmissing => hdistinct (hnil.2 hmissing)]

/-- **Filling in is all or nothing.** Without aliases, customizers and the last comma, a query has
one cut into kept characters and placeholders. It cannot be sent just if a placeholder of the cut
has no value, and then the names without a value are reported, each once and in the order of first
occurrence. Else it is sent with its placeholders replaced by their values, and all else as it
was. -/
theorem normalize_fills_or_reports (parameters : Entries String) (query : List Char) :
    ∃ segments, (∀ other, Cut (fun _ => true) none (cleaned query) other ↔ other = segments) ∧
      ((∃ error, normalize parameters query = .error error) ↔
        ∃ name, .placeholder name ∈ segments ∧ parameters.find? (String.ofList name) = none) ∧
      (∀ error, normalize parameters query = .error error →
        ∃ names, error = .unresolvedParameters names ∧
          FirstOccurrences names (missing parameters segments)) ∧
      ((∀ name, .placeholder name ∈ segments → parameters.find? (String.ofList name) ≠ none) →
        normalize parameters query = .ok (segments.flatMap (Segment.image parameters))) := by
  obtain ⟨segments, hcut⟩ := Cut.exists_cut (fun _ => true) none (cleaned query)
  have hunique (other : List Segment) :
      Cut (fun _ => true) none (cleaned query) other ↔ other = segments :=
    ⟨fun h => h.unique hcut, fun h => h ▸ hcut⟩
  have hmissing : missing parameters segments ≠ [] ↔
      ∃ name, .placeholder name ∈ segments ∧ parameters.find? (String.ofList name) = none := by
    rw [ne_eq, missing_eq_nil_iff]
    simp [Entries.has]
  have hnormalize : normalize parameters query =
      if missing parameters segments = [] then .ok (segments.flatMap (Segment.image parameters))
      else .error (.unresolvedParameters (distinct (missing parameters segments))) :=
    fillIn_of_cut hcut
  refine ⟨segments, hunique, ?_, fun error herror => ?_, fun hall => ?_⟩
  · rw [← hmissing, hnormalize]
    split
    · next hnil => simp [hnil]
    · next hne => simp [hne]
  · rw [hnormalize] at herror
    split at herror
    · cases herror
    · exact ⟨_, (Except.error.inj herror).symm, firstOccurrences_distinct _⟩
  · have hnil : missing parameters segments = [] := by
      by_contra hne
      obtain ⟨name, hname, hnone⟩ := hmissing.1 hne
      exact hall name hname hnone
    rw [hnormalize, if_pos hnil]

end Query

end ReportQuery
