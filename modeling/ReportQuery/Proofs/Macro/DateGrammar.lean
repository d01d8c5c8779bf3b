import ReportQuery.Macro.DateLiteral
import ReportQuery.Proofs.Text.Integer
import ReportQuery.Proofs.Text.Lower
/-!
# The grammar of date literals

`Writes` says which texts write a date literal, without saying how one is read: blanks, a colon, the
name of a period in any case, blanks, and the text of a distance. The names begin alike, and the
reader takes the longest; no shorter one can be meant, because what stands behind a period is a
blank, a dash or the end. So a text is read as a literal if and only if it writes the literal
(`read?_eq_some`), hence writes at most one, and every literal is read back from its own text.
-/

namespace ReportQuery

open Text

/-- The name of a period. -/
def Period.name : Period → List Char
  | .day => ['Y', 'Y', 'Y', 'Y', 'M', 'M', 'D', 'D']
  | .month => ['Y', 'Y', 'Y', 'Y', 'M', 'M']
  | .year => ['Y', 'Y', 'Y', 'Y']

namespace DateLiteral

variable {l : DateLiteral} {period : Period} {n : Int64}
variable {value text rest gap tail line : List Char}

/-- A name of a period in any case of its letters. -/
def Names (word : List Char) (period : Period) : Prop :=
  word.map Char.toLower = period.name.map Char.toLower

/-- The text of a distance: nothing, which stands for zero, or a dash and one line. A line of blanks
stands for zero as well, any other for the integer that it holds between blanks. -/
inductive WritesDistance : List Char → Int64 → Prop
  | absent : WritesDistance [] 0
  | blank {line : List Char} (hline : '\n' ∉ line) (hblank : trim line = []) :
    WritesDistance ('-' :: line) 0
  | given {line : List Char} {n : Int64} (hline : '\n' ∉ line)
    (hliteral : IsLiteral (trim line) n.toInt) : WritesDistance ('-' :: line) n

/-- **The texts of a date literal.** -/
def Writes (value : List Char) (l : DateLiteral) : Prop :=
  ∃ blanks word gap tail, value = blanks ++ ':' :: (word ++ (gap ++ tail)) ∧
    (∀ c ∈ blanks, isBlank c = true) ∧ Names word l.period ∧ (∀ c ∈ gap, isBlank c = true) ∧
    WritesDistance tail l.distance

/-- A text of a literal. -/
def written (l : DateLiteral) : String :=
  String.ofList (':' :: (l.period.name ++ '-' :: intDigits l.distance.toInt))

/-! ## Periods -/

theorem names_iff {word : List Char} :
    Names word period ↔ Spells (period.name.map Char.toLower) word := by
  have hall : (period.name.map Char.toLower).all (fun k => k ≠ 's' && k ≠ 'k') = true := by
    cases period <;> decide
  have hletters : ∀ k ∈ period.name.map Char.toLower, k ≠ 's' ∧ k ≠ 'k' := by
    simpa only [List.all_eq_true, Bool.and_eq_true, decide_eq_true_eq] using hall
  unfold Names
  generalize period.name.map Char.toLower = keyword at hletters
  exact (spells_iff_of_plain hletters).symm

/-- The names of the periods are put together from those of years, months and days. -/
theorem afterKeyword?_name (period : Period) (text : List Char) :
    afterKeyword? (period.name.map Char.toLower) text =
      match period with
      | .year => afterKeyword? ['y', 'y', 'y', 'y'] text
      | .month => (afterKeyword? ['y', 'y', 'y', 'y'] text).bind (afterKeyword? ['m', 'm'])
      | .day => ((afterKeyword? ['y', 'y', 'y', 'y'] text).bind (afterKeyword? ['m', 'm'])).bind
          (afterKeyword? ['d', 'd']) := by
  cases period with
  | year => rfl
  | month => exact afterKeyword?_append_keyword ['y', 'y', 'y', 'y'] ['m', 'm'] text
  | day =>
    rw [← afterKeyword?_append_keyword, ← afterKeyword?_append_keyword]
    rfl

/-- What is read as a period is its name. -/
theorem afterKeyword?_of_period? (h : period? text = some (period, rest)) :
    afterKeyword? (period.name.map Char.toLower) text = some rest := by
  rw [afterKeyword?_name]
  unfold period? at h
  cases hyear : afterKeyword? ['y', 'y', 'y', 'y'] text with
  | none =>
    rw [hyear] at h
    cases h
  | some afterYear =>
    cases hmonth : afterKeyword? ['m', 'm'] afterYear with
    | none =>
      simp only [hyear, hmonth] at h
      cases h
      rfl
    | some afterMonth =>
      cases hday : afterKeyword? ['d', 'd'] afterMonth with
      | none =>
        simp only [hyear, hmonth, hday] at h
        cases h
        exact hmonth
      | some afterDay =>
        simp only [hyear, hmonth, hday] at h
        cases h
        simpa [hmonth] using hday

/-- **A name of a period is read as the period where no longer one can stand.** -/
theorem period?_of_afterKeyword? (h : afterKeyword? (period.name.map Char.toLower) text = some rest)
    (hstop : ∀ c ∈ rest.head?, isWord c = false) : period? text = some (period, rest) := by
  rw [afterKeyword?_name] at h
  unfold period?
  cases period with
  | year =>
    have hmonth : afterKeyword? ['m', 'm'] rest = none := afterKeyword?_eq_none (by decide) hstop
    simp only [h, hmonth]
  | month =>
    have hday : afterKeyword? ['d', 'd'] rest = none := afterKeyword?_eq_none (by decide) hstop
    obtain ⟨afterYear, hyear, hmonth⟩ := Option.bind_eq_some_iff.1 h
    simp only [hyear, hmonth, hday]
  | day =>
    obtain ⟨afterMonth, h, hday⟩ := Option.bind_eq_some_iff.1 h
    obtain ⟨afterYear, hyear, hmonth⟩ := Option.bind_eq_some_iff.1 h
    simp only [hyear, hmonth, hday]

/-! ## Distances -/

/-- The text of a distance does not start with a blank, nor with another character of words. -/
theorem WritesDistance.head (h : WritesDistance tail n) :
    ∀ c ∈ tail.head?, isBlank c = false ∧ isWord c = false := by
  cases h with
  | absent => simp
  | blank _ _ | given _ _ =>
    rintro c ⟨⟩
    decide

theorem trimStart_gap_tail (hgap : ∀ c ∈ gap, isBlank c = true) (h : WritesDistance tail n) :
    trimStart (gap ++ tail) = tail := by
  rw [trimStart_append_of_eq_nil (List.dropWhile_eq_nil_iff.2 hgap)]
  cases tail with
  | nil => rfl
  | cons c cs => exact trimStart_of_head (h.head c rfl).1

theorem ne_nil_of_isLiteral {text : List Char} {i : Int} (h : IsLiteral text i) : text ≠ [] := by
  obtain ⟨sign, digits, rfl, hdigits, -⟩ := h
  exact List.append_ne_nil_of_right_ne_nil _ hdigits

/-- **What is read as a distance is, after blanks, the text of one.** -/
theorem distance?_eq_some : distance? text = some n ↔
    ∃ gap tail, text = gap ++ tail ∧ (∀ c ∈ gap, isBlank c = true) ∧ WritesDistance tail n := by
  constructor
  · intro h
    obtain ⟨gap, hgap, htext⟩ := exists_gap_trimStart text
    refine ⟨gap, _, htext, hgap, ?_⟩
    unfold distance? at h
    split at h
    · next hend =>
      cases h
      exact hend ▸ .absent
    · next line hdash =>
      rw [hdash]
      obtain ⟨hline, h⟩ := Option.ite_none_left_eq_some.1 h
      split at h
      · next hblank =>
        cases h
        exact .blank hline hblank
      · exact .given hline (readInt64?_eq_some.1 h)
    · cases h
  · rintro ⟨gap, tail, rfl, hgap, htail⟩
    rw [distance?, trimStart_gap_tail hgap htail]
    cases htail with
    | absent => rfl
    | blank hline hblank => exact (if_neg hline).trans (if_pos hblank)
    | given hline hliteral =>
      exact (if_neg hline).trans ((if_neg (ne_nil_of_isLiteral hliteral)).trans
        (readInt64?_eq_some.2 hliteral))

/-! ## Literals -/

/-- **A text is read as a literal if and only if it writes the literal.** -/
theorem read?_eq_some : read? value = some l ↔ Writes value l := by
  constructor
  · intro h
    obtain ⟨blanks, hblanks, hvalue⟩ := exists_gap_trimStart value
    unfold read? at h
    split at h
    · next rest hcolon =>
      rw [hcolon] at hvalue
      split at h
      · cases h
      · next period rest' hperiod =>
        obtain ⟨n, hdistance, rfl⟩ := Option.map_eq_some_iff.1 h
        obtain ⟨word, hword, rfl⟩ := afterKeyword?_eq_some.1 (afterKeyword?_of_period? hperiod)
        obtain ⟨gap, tail, rfl, hgap, htail⟩ := distance?_eq_some.1 hdistance
        exact ⟨blanks, word, gap, tail, hvalue, hblanks, names_iff.2 hword, hgap, htail⟩
    · cases h
  · rintro ⟨blanks, word, gap, tail, rfl, hblanks, hword, hgap, htail⟩
    have hcolon : trimStart (blanks ++ ':' :: (word ++ (gap ++ tail))) =
        ':' :: (word ++ (gap ++ tail)) := by
      rw [trimStart_append_of_eq_nil (List.dropWhile_eq_nil_iff.2 hblanks)]
      exact trimStart_of_head (by decide)
    have hstop : ∀ c ∈ (gap ++ tail).head?, isWord c = false := by
      intro c hc
      cases gap with
      | nil => exact (htail.head c hc).2
      | cons b bs =>
        cases hc
        exact isWord_of_isBlank (hgap _ List.mem_cons_self)
    have hperiod : period? (word ++ (gap ++ tail)) = some (l.period, gap ++ tail) :=
      period?_of_afterKeyword? (afterKeyword?_append (names_iff.1 hword)) hstop
    have hdistance : distance? (gap ++ tail) = some l.distance :=
      distance?_eq_some.2 ⟨gap, tail, rfl, hgap, htail⟩
    unfold read?
    rw [hcolon]
    simp only [hperiod, hdistance, Option.map_some]

/-- A value is read as the literal that it writes. -/
theorem read_eq_ok {name value : String} : read name value = .ok l ↔ Writes value.toList l := by
  rw [← read?_eq_some, read]
  cases read? value.toList <;> simp

/-- The digits of an integer are a word. -/
theorem isWordText_intDigits (i : Int) : IsWordText (intDigits i) := by
  refine ⟨intDigits_ne_nil i, fun c hc => ?_⟩
  rcases isDigit_or_eq_of_mem_intDigits hc with hdigit | rfl
  · exact isBlank_of_isWord (isWord_of_isDigit hdigit)
  · decide

/-- Every literal has a text. -/
theorem writes_written (l : DateLiteral) : Writes l.written.toList l := by
  have hword := isWordText_intDigits l.distance.toInt
  have hline : '\n' ∉ intDigits l.distance.toInt :=
    fun hmem => absurd (hword.2 _ hmem) (by decide)
  have hliteral : IsLiteral (trim (intDigits l.distance.toInt)) l.distance.toInt := by
    rw [trim_of_isWordText hword]
    exact readInt64?_eq_some.1 (readInt64?_intDigits l.distance)
  refine ⟨[], l.period.name, [], _, ?_, by simp, rfl, by simp, .given hline hliteral⟩
  rw [written, String.toList_ofList]
  rfl

/-- **The reader accepts the texts of literals and no others**: it reads a text as a literal if and
only if the text writes the literal, and refuses it, naming the macro, if and only if it writes
none. A literal is read back from its own text. -/
theorem read_iff_writes (name value : String) :
    (∀ l, read name value = .ok l ↔ Writes value.toList l) ∧
      (read name value = .error (.dateFormat name value) ↔ ∀ l, ¬ Writes value.toList l) ∧
      ∀ l : DateLiteral, read name l.written = .ok l := by
  refine ⟨fun l => read_eq_ok, ?_, fun l => read_eq_ok.2 (writes_written l)⟩
  simp only [← read?_eq_some, read]
  cases read? value.toList <;> simp

example : read "start" " :yyyyMM - +3 " = .ok ⟨.month, 3⟩ := by decide

end DateLiteral
end ReportQuery
