import Mathlib.Logic.Function.Basic
import ReportQuery.Proofs.Calendar.Day
/-!
# The texts of dates

A text of a date belongs to no other date, with dashes (`Date.text_injective`) and without
(`Date.compact_injective`). A month and a day take two characters each, so what stands before them
is the year, however many characters it has; and a year is read back from its text as an integer.
-/

namespace ReportQuery

open Calendar Text

variable {width n : Nat}

namespace Text

theorem digitsValue_paddedDigits (width n : Nat) : digitsValue 0 (paddedDigits width n) = n := by
  show Nat.ofDigitChars 10 (paddedDigits width n) 0 = n
  rw [paddedDigits, Nat.ofDigitChars_append, Nat.ofDigitChars_replicate_zero, Nat.mul_zero]
  exact Nat.ofDigitChars_ten_toDigits

theorem paddedDigits_injective (width : Nat) : Function.Injective (paddedDigits width) :=
  Function.LeftInverse.injective (digitsValue_paddedDigits width)

/-- A number that fits is as long as the width. -/
theorem length_paddedDigits (hwidth : 0 < width) (h : n < 10 ^ width) :
    (paddedDigits width n).length = width := by
  have hle : (natDigits n).length ≤ width :=
    (Nat.length_toDigits_le_iff (by decide) hwidth).2 h
  rw [paddedDigits, List.length_append, List.length_replicate]
  omega

end Text

namespace Date

variable {d e : Date}

theorem length_month (d : Date) : (paddedDigits 2 d.month).length = 2 :=
  length_paddedDigits (by decide) (d.month_le.trans_lt (by decide))

theorem length_day (d : Date) : (paddedDigits 2 d.day).length = 2 := by
  have hmonth : daysInMonth d.year d.month ≤ 31 := by
    unfold daysInMonth
    split
    · split <;> decide
    · split <;> decide
  exact length_paddedDigits (by decide) ((d.day_le.trans hmonth).trans_lt (by decide))

/-- The padded digits of a number write it. -/
theorem isLiteral_sign_paddedDigits (sign : List Char) {i : Int}
    (hsign : (sign = [] ∨ sign = ['+']) ∧ i = n ∨ sign = ['-'] ∧ i = -(n : Int)) :
    IsLiteral (sign ++ paddedDigits width n) i := by
  have hne : paddedDigits width n ≠ [] :=
    List.append_ne_nil_of_right_ne_nil _ (natDigits_ne_nil n)
  have hvalue : Nat.ofDigitChars 10 (paddedDigits width n) 0 = n := digitsValue_paddedDigits width n
  exact ⟨sign, paddedDigits width n, rfl, hne, fun _ => isDigit_of_mem_paddedDigits,
    by rwa [hvalue]⟩

/-- The text of a year writes it. -/
theorem isLiteral_yearText (year : Int) : IsLiteral (yearText year) year := by
  unfold yearText
  split
  · exact isLiteral_sign_paddedDigits [] (.inl ⟨.inl rfl, by omega⟩)
  · split
    · exact isLiteral_sign_paddedDigits ['-'] (.inr ⟨rfl, by omega⟩)
    · exact isLiteral_sign_paddedDigits ['+'] (.inl ⟨.inr rfl, by omega⟩)

/-- **A year is known by its text**, which is read back. -/
theorem yearText_injective : Function.Injective yearText := by
  intro y z h
  have hread := readInt?_eq_some.2 (isLiteral_yearText y)
  rw [h, readInt?_eq_some.2 (isLiteral_yearText z)] at hread
  exact (Option.some.inj hread).symm

/-- **A date is known by its text without dashes.** -/
theorem compact_injective : Function.Injective compact := by
  intro d e h
  obtain ⟨hfront, hday⟩ := List.append_inj' h (d.length_day.trans e.length_day.symm)
  obtain ⟨hyear, hmonth⟩ := List.append_inj' hfront (d.length_month.trans e.length_month.symm)
  exact eq_of_parts (yearText_injective hyear) (paddedDigits_injective 2 hmonth)
    (paddedDigits_injective 2 hday)

/-- **A date is known by its text with dashes.** -/
theorem text_injective : Function.Injective text := by
  intro d e h
  have hlength (d : Date) :
      ('-' :: (paddedDigits 2 d.month ++ '-' :: paddedDigits 2 d.day)).length = 6 := by
    rw [List.length_cons, List.length_append, List.length_cons, d.length_month, d.length_day]
  obtain ⟨hyear, hrest⟩ := List.append_inj' h ((hlength d).trans (hlength e).symm)
  obtain ⟨hmonth, hday⟩ := List.append_inj (List.cons.inj hrest).2
    (d.length_month.trans e.length_month.symm)
  exact eq_of_parts (yearText_injective hyear) (paddedDigits_injective 2 hmonth)
    (paddedDigits_injective 2 (List.cons.inj hday).2)

/-- No colon stands in the text of a date. -/
theorem not_colon_text (d : Date) : ':' ∉ d.text := by
  have hyear : ':' ∉ yearText d.year := fun hmem =>
    absurd ((isLiteral_yearText d.year).chars _ hmem) (by decide)
  have hdigits (n : Nat) : ':' ∉ paddedDigits 2 n := fun hmem =>
    absurd (isDigit_of_mem_paddedDigits hmem) (by decide)
  simp [text, hyear, hdigits]

end Date
end ReportQuery
