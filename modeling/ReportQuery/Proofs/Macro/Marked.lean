import ReportQuery.Proofs.Calendar.Text
import ReportQuery.Proofs.Macro.DateGrammar
import ReportQuery.Proofs.Macro.Order
/-!
# Which date literals are resolved

Reading a date literal passes over blanks before the colon and over the case of the letters.
Preparing the macros does not: it resolves the values that start with `:YYYY`, in upper case and
without a blank before it, and keeps every other text. So a literal that is read and has a date is
replaced by the date if its first five characters are these, whatever the case of the letters
behind, and is put into the text as it stands otherwise (`expand_literal_iff`).
-/

namespace ReportQuery

open Text Outcome

variable {macros : Macros} {now : Instant} {name value : String} {text blanks word rest : List Char}
variable {period : Period}

namespace DateLiteral

theorem isMarked_iff : isMarked text = true ↔ [':', 'Y', 'Y', 'Y', 'Y'] <+: text := by
  rw [isMarked, Option.isSome_iff_exists]
  exact exists_congr fun rest => after?_eq_some.trans eq_comm

theorem length_of_names (h : Names word period) : 4 ≤ word.length := by
  have hlength := congrArg List.length h
  rw [List.length_map, List.length_map] at hlength
  rw [hlength]
  cases period <;> decide

/-- **A literal starts with `:YYYY`** if no blank stands before its colon, and the name of its
period begins in upper case. -/
theorem prefix_iff_of_names (hblanks : ∀ c ∈ blanks, isBlank c = true) (hword : Names word period) :
    [':', 'Y', 'Y', 'Y', 'Y'] <+: blanks ++ ':' :: (word ++ rest) ↔
      blanks = [] ∧ word.take 4 = ['Y', 'Y', 'Y', 'Y'] := by
  cases blanks with
  | nil =>
    have htake : (word ++ rest).take 4 = word.take 4 :=
      List.take_append_of_le_length (length_of_names hword)
    simp [List.prefix_iff_eq_take, htake, eq_comm]
  | cons b bs =>
    have hb : ':' ≠ b := by
      rintro rfl
      exact absurd (hblanks _ List.mem_cons_self) (by decide)
    simp [List.cons_prefix_cons, hb]

/-- A date is no text of a literal. -/
theorem ne_of_resolve {literal date : String} {today : Date} {l : DateLiteral}
    (hdate : resolve name literal today = .ok date) (h : Writes value.toList l) : value ≠ date := by
  obtain ⟨l', -, hdate⟩ := bind_eq_ok.1 hdate
  split at hdate
  · next d _ =>
    cases hdate
    rintro rfl
    obtain ⟨_, _, _, _, hvalue, -⟩ := h
    rw [String.toList_ofList] at hvalue
    exact d.not_colon_text (hvalue ▸ by simp)
  · cases hdate

end DateLiteral

/-- A run that succeeds has found a date for each literal that it resolves. -/
theorem Macros.datesResolve_of_expand {e : Expansion} (h : (expand now macros text).2 = .ok e) :
    macros.DatesResolve now.date := by
  by_contra hnot
  obtain ⟨left, fault, hfails, -⟩ := expand_fails hnot
  rw [hfails] at h
  cases h

/-- **Which date literals are resolved.** When a run succeeds, a value that is read as a literal and
has a date is replaced by the date if it starts with `:YYYY`, and is kept otherwise, where it is no
date. A literal starts so if it has no blank before the colon, and the first four letters of the
name of its period are in upper case. -/
theorem expand_literal_iff (now : Instant) (macros : Macros) (text : List Char)
    (name value date : String) (l : DateLiteral) (e : Expansion)
    (hrun : (expand now macros text).2 = .ok e)
    (hfind : macros.find? name = some (.text value)) (hread : DateLiteral.read name value = .ok l)
    (hdate : DateLiteral.resolve name value now.date = .ok date) :
    ([':', 'Y', 'Y', 'Y', 'Y'] <+: value.toList →
        (expand now macros text).1.find? name = some (.text date)) ∧
      (¬ [':', 'Y', 'Y', 'Y', 'Y'] <+: value.toList →
        (expand now macros text).1.find? name = some (.text value) ∧ value ≠ date) ∧
      ∃ blanks word rest, value.toList = blanks ++ ':' :: (word ++ rest) ∧
        (∀ c ∈ blanks, isBlank c = true) ∧ DateLiteral.Names word l.period ∧
        ([':', 'Y', 'Y', 'Y', 'Y'] <+: value.toList ↔
          blanks = [] ∧ word.take 4 = ['Y', 'Y', 'Y', 'Y']) := by
  have hwrites := DateLiteral.read_eq_ok.1 hread
  have hafter : (expand now macros text).1.find? name =
      some ((MacroValue.text value).on now.date name) := by
    rw [expand_of_prepare (Macros.prepare_eq (Macros.datesResolve_of_expand hrun)),
      Macros.find?_prepared_of_find? hfind]
  rw [MacroValue.on, hdate] at hafter
  refine ⟨fun hprefix => ?_, fun hprefix => ⟨?_, DateLiteral.ne_of_resolve hdate hwrites⟩, ?_⟩
  · rw [hafter, if_pos (DateLiteral.isMarked_iff.2 hprefix)]
  · rw [hafter, if_neg fun hmarked => hprefix (DateLiteral.isMarked_iff.1 hmarked)]
  · obtain ⟨blanks, word, gap, tail, hvalue, hblanks, hword, -, -⟩ := hwrites
    refine ⟨blanks, word, gap ++ tail, hvalue, hblanks, hword, ?_⟩
    rw [hvalue]
    exact DateLiteral.prefix_iff_of_names hblanks hword

/-- Yesterday in two spellings that are resolved, and in two that are not. -/
def Macros.spellings : Macros :=
  [("upper", .text ":YYYYMMDD-1"), ("mixed", .text ":YYYYmmDD - 1 "), ("lower", .text ":yyyymmdd-1"),
    ("blank", .text " :YYYYMMDD-1")]

/-- The one in mixed case is resolved, and the one behind a blank is kept. -/
theorem expand_literal_iff_spellings :
    (expand .sample .spellings "{mixed}".toList).1.find? "mixed" = some (.text "2024-03-14") ∧
      (expand .sample .spellings "{mixed}".toList).1.find? "blank" =
        some (.text " :YYYYMMDD-1") := by
  have hrun : (expand .sample .spellings "{mixed}".toList).2 = .ok ⟨"2024-03-14", []⟩ := by
    decide +kernel
  obtain ⟨hresolved, -, -⟩ := expand_literal_iff .sample .spellings _ "mixed" ":YYYYmmDD - 1 "
    "2024-03-14" ⟨.day, 1⟩ _ hrun rfl (by decide) (by decide +kernel)
  obtain ⟨-, hkept, -⟩ := expand_literal_iff .sample .spellings _ "blank" " :YYYYMMDD-1"
    "2024-03-14" ⟨.day, 1⟩ _ hrun rfl (by decide) (by decide +kernel)
  exact ⟨hresolved (by decide), (hkept (by decide)).1⟩

/-- A literal in lower case and one behind a blank are read and have a date, and are put into the
text as they stand. -/
theorem expand_literal_kept :
    DateLiteral.read "lower" ":yyyymmdd-1" = .ok ⟨.day, 1⟩ ∧
      DateLiteral.resolve "lower" ":yyyymmdd-1" Instant.sample.date = .ok "2024-03-14" ∧
      DateLiteral.read "blank" " :YYYYMMDD-1" = .ok ⟨.day, 1⟩ ∧
      DateLiteral.resolve "blank" " :YYYYMMDD-1" Instant.sample.date = .ok "2024-03-14" ∧
      ((expand .sample .spellings "{lower}{blank}".toList).1.find? "lower").map MacroValue.display =
        some ":yyyymmdd-1".toList ∧
      ((expand .sample .spellings "{lower}{blank}".toList).1.find? "blank").map MacroValue.display =
        some " :YYYYMMDD-1".toList ∧
      (expand .sample .spellings "{lower}{blank}".toList).2 =
        .ok ⟨":yyyymmdd-1 :YYYYMMDD-1", []⟩ := by
  decide +kernel

end ReportQuery
