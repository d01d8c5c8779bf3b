import Mathlib.Order.Monotone.Basic
import Mathlib.Tactic.IntervalCases
import ReportQuery.Calendar.Date
import ReportQuery.Proofs.Text.Integer
/-!
# Days of the calendar

The calendar without a first and a last year. A day is followed by the next one (`Day.next`), and
its number is one less than that of the next (`Day.number_next`). Every integer is the number of
one day and of no other (`Date.exists_number_eq`, `Day.number_injective`), so that a number of days
before a day is a matter of numbers alone. The dates are the days of the years in the range, and
reading a number as a date finds the day of that number if it is in the range
(`Date.ofNumber?_number`). So only the first date has none before it
(`Date.minusDays?_one_eq_none`).
-/

namespace ReportQuery

open Calendar Text

namespace Calendar

variable {month k : Nat} {y z n : Int}

/-! ## Years and months that start with March -/

theorem isLeap_iff : isLeap y = true ↔ y % 4 = 0 ∧ (y % 100 ≠ 0 ∨ y % 400 = 0) := by
  simp [isLeap]

theorem daysInMonth_february (y : Int) : daysInMonth y 2 = if isLeap y then 29 else 28 := rfl

theorem daysInMonth_february_le (y : Int) : daysInMonth y 2 ≤ 29 := by
  rw [daysInMonth_february]
  split <;> decide

/-- A counted year ends with February, so that it is a day longer where the next year has a
29 February. -/
theorem daysBeforeYear_succ (y : Int) :
    daysBeforeYear (y + 1) = daysBeforeYear y + 337 + daysInMonth (y + 1) 2 := by
  rw [daysInMonth_february]
  unfold daysBeforeYear
  by_cases h : isLeap (y + 1) = true
  · rw [if_pos h]
    rw [isLeap_iff] at h
    omega
  · rw [if_neg h]
    rw [isLeap_iff] at h
    omega

theorem daysBeforeYear_lt_succ (y : Int) : daysBeforeYear y < daysBeforeYear (y + 1) := by
  rw [daysBeforeYear_succ]
  omega

theorem daysBeforeYear_le (h : y ≤ z) : daysBeforeYear y ≤ daysBeforeYear z :=
  monotone_int_of_le_succ (fun y => (daysBeforeYear_lt_succ y).le) h

/-- The counted year that a day lies in is the only one. -/
theorem eq_of_daysBeforeYear_le (hy : daysBeforeYear y ≤ n) (hy' : n < daysBeforeYear (y + 1))
    (hz : daysBeforeYear z ≤ n) (hz' : n < daysBeforeYear (z + 1)) : y = z := by
  rcases lt_trichotomy y z with h | h | h
  · exact absurd (hy'.trans_le ((daysBeforeYear_le h).trans hz)) (lt_irrefl n)
  · exact h
  · exact absurd (hz'.trans_le ((daysBeforeYear_le h).trans hy)) (lt_irrefl n)

theorem one_le_daysInMonth (y : Int) (month : Nat) : 1 ≤ daysInMonth y month := by
  unfold daysInMonth
  split
  · split <;> decide
  · split <;> decide

/-- A month other than February ends where the next one starts. -/
theorem daysBeforeMonth_succ (y : Int) (h : 1 ≤ month) (h' : month ≤ 12) (hne : month ≠ 2) :
    daysBeforeMonth ((month + 9) % 12 + 1) =
      daysBeforeMonth ((month + 9) % 12) + daysInMonth y month := by
  interval_cases month <;> first | rfl | contradiction

/-- The number of the first day of a month. -/
def monthStart (year : Int) (month : Nat) : Int :=
  daysBeforeYear (if month ≤ 2 then year - 1 else year) + daysBeforeMonth ((month + 9) % 12)

theorem monthStart_march (y : Int) : monthStart y 3 = daysBeforeYear y := by
  simp [monthStart, daysBeforeMonth]

theorem monthStart_february (y : Int) : monthStart y 2 = daysBeforeYear (y - 1) + 337 := by
  simp [monthStart, daysBeforeMonth]

/-- **A month starts where the one before it ends.** -/
theorem monthStart_succ (y : Int) (h : 1 ≤ month) (h' : month < 12) :
    monthStart y (month + 1) = monthStart y month + daysInMonth y month := by
  by_cases hfebruary : month = 2
  · subst hfebruary
    have hsucc := daysBeforeYear_succ (y - 1)
    rw [Int.sub_add_cancel] at hsucc
    rw [monthStart_march, monthStart_february, hsucc]
  · have hcount : (month + 1 + 9) % 12 = (month + 9) % 12 + 1 := by omega
    have hyear : (if month + 1 ≤ 2 then y - 1 else y) = if month ≤ 2 then y - 1 else y := by
      split <;> split <;> omega
    rw [monthStart, monthStart, hcount, hyear, daysBeforeMonth_succ y h h'.le hfebruary]
    omega

/-- A year starts where the one before it ends. -/
theorem monthStart_january (y : Int) :
    monthStart (y + 1) 1 = monthStart y 12 + daysInMonth y 12 := by
  simp [monthStart, daysBeforeMonth, daysInMonth]
  omega

/-! ## The year and the month of a number -/

theorem daysBeforeYear_cycle (cycle year : Int) :
    daysBeforeYear (400 * cycle + year) = 146097 * cycle + daysBeforeYear year := by
  unfold daysBeforeYear
  omega

/-- A year of a cycle of 400 years has the leap days of the fours before it, less those of the
hundreds. -/
theorem daysBeforeYear_of_parts {century four single : Nat} (hcentury : century ≤ 3)
    (hfour : four ≤ 24) (hsingle : single ≤ 3) :
    daysBeforeYear ((100 * century + 4 * four + single : Nat) : Int) =
      ((36524 * century + 1461 * four + 365 * single : Nat) : Int) := by
  unfold daysBeforeYear
  omega

/-- **The year of a number is the counted year that it lies in.** -/
theorem yearOfNumber_spec (n : Int) :
    daysBeforeYear (Date.yearOfNumber n).1 + (Date.yearOfNumber n).2 = n ∧
      n < daysBeforeYear ((Date.yearOfNumber n).1 + 1) := by
  obtain ⟨inCycle, hinCycle⟩ : ∃ k : Nat, k = (n % 146097).toNat := ⟨_, rfl⟩
  obtain ⟨century, hcentury⟩ : ∃ k, k = min 3 (inCycle / 36524) := ⟨_, rfl⟩
  obtain ⟨inCentury, hinCentury⟩ : ∃ k, k = inCycle - 36524 * century := ⟨_, rfl⟩
  obtain ⟨single, hsingle⟩ : ∃ k, k = min 3 (inCentury % 1461 / 365) := ⟨_, rfl⟩
  have hyear : Date.yearOfNumber n =
      (400 * (n / 146097) + (100 * century + 4 * (inCentury / 1461) + single : Nat),
        inCentury % 1461 - 365 * single) := by
    subst hsingle hinCentury hcentury hinCycle
    rfl
  -- the last hundred and the last single year of their cycle may be a day longer
  have hlast : inCentury < 36524 ∨ century = 3 ∧ inCentury = 36524 := by omega
  have hstart : daysBeforeYear (Date.yearOfNumber n).1 + (Date.yearOfNumber n).2 = n := by
    rw [hyear, daysBeforeYear_cycle,
      daysBeforeYear_of_parts (by omega) (by omega) (by omega)]
    dsimp only
    omega
  refine ⟨hstart, ?_⟩
  rw [daysBeforeYear_succ, daysInMonth_february]
  by_cases hleap : isLeap ((Date.yearOfNumber n).1 + 1) = true
  · rw [if_pos hleap]
    have hday : (Date.yearOfNumber n).2 ≤ 365 := by
      rw [hyear]
      dsimp only
      omega
    omega
  · rw [if_neg hleap]
    have hday : (Date.yearOfNumber n).2 ≤ 364 := by
      rw [isLeap_iff, hyear] at hleap
      rw [hyear]
      dsimp only at hleap ⊢
      omega
    omega

/-- The month of a day of the year is the one that it lies in. -/
theorem monthOfDay_spec (h : k < 366) :
    daysBeforeMonth (Date.monthOfDay k).1 + (Date.monthOfDay k).2 = k ∧
      k < daysBeforeMonth ((Date.monthOfDay k).1 + 1) ∧ (Date.monthOfDay k).1 < 12 := by
  unfold Date.monthOfDay daysBeforeMonth
  dsimp only
  omega

end Calendar

/-- A day of the calendar, in whatever year. -/
@[ext]
structure Day where
  year : Int
  month : Nat
  day : Nat
  one_le_month : 1 ≤ month
  month_le : month ≤ 12
  one_le_day : 1 ≤ day
  day_le : day ≤ daysInMonth year month

namespace Day

variable {d e : Day} {n : Int}

/-- The day after. -/
def next (d : Day) : Day :=
  if hday : d.day < daysInMonth d.year d.month then
    ⟨d.year, d.month, d.day + 1, d.one_le_month, d.month_le, Nat.le_add_left _ _, hday⟩
  else if hmonth : d.month < 12 then
    ⟨d.year, d.month + 1, 1, Nat.le_add_left _ _, hmonth, Nat.le_refl _, one_le_daysInMonth _ _⟩
  else ⟨d.year + 1, 1, 1, Nat.le_refl _, by decide, Nat.le_refl _, one_le_daysInMonth _ _⟩

/-- The number of a day, counted from 1 March of the year 0. -/
def number (d : Day) : Int := monthStart d.year d.month + (d.day - 1 : Nat)

/-! ## Counting -/

/-- **The next day has the next number.** -/
theorem number_next (d : Day) : d.next.number = d.number + 1 := by
  have hday := d.one_le_day
  have hday' := d.day_le
  unfold next
  split
  · simp only [number]
    omega
  · next hlast =>
    split
    · next hmonth =>
      simp only [number, monthStart_succ d.year d.one_le_month hmonth]
      omega
    · next hmonth =>
      have hdecember : d.month = 12 := by have := d.month_le; omega
      rw [hdecember] at hlast hday'
      simp only [number, monthStart_january, hdecember]
      omega

/-- A day after another is in the next year if it is the first of its year. -/
theorem year_next (d : Day) :
    d.next.year = if d.next.month = 1 ∧ d.next.day = 1 then d.year + 1 else d.year := by
  have hmonth := d.one_le_month
  have hday := d.one_le_day
  unfold next
  split
  · exact (if_neg fun h => by have : d.day + 1 = 1 := h.2; omega).symm
  · split
    · exact (if_neg fun h => by have : d.month + 1 = 1 := h.1; omega).symm
    · exact (if_pos ⟨rfl, rfl⟩).symm

/-- The year, started with March, that a day lies in. -/
def countedYear (d : Day) : Int := if d.month ≤ 2 then d.year - 1 else d.year

/-- The place of a day in its counted year. -/
def dayOfYear (d : Day) : Nat := daysBeforeMonth ((d.month + 9) % 12) + (d.day - 1)

theorem number_eq (d : Day) : d.number = daysBeforeYear d.countedYear + d.dayOfYear := by
  simp only [number, monthStart, countedYear, dayOfYear]
  omega

/-- The place of a day in its counted year lies in its month. -/
theorem dayOfYear_lt_month (d : Day) :
    d.dayOfYear < daysBeforeMonth ((d.month + 9) % 12 + 1) := by
  have hday := d.one_le_day
  have hday' := d.day_le
  by_cases hfebruary : d.month = 2
  · have hlength := daysInMonth_february_le d.year
    rw [hfebruary] at hday'
    simp only [dayOfYear, hfebruary, daysBeforeMonth]
    omega
  · rw [daysBeforeMonth_succ d.year d.one_le_month d.month_le hfebruary, dayOfYear]
    omega

/-- A day lies in its counted year. -/
theorem number_lt (d : Day) : d.number < daysBeforeYear (d.countedYear + 1) := by
  rw [number_eq, daysBeforeYear_succ]
  have hmonth := d.dayOfYear_lt_month
  by_cases hfebruary : d.month = 2
  · have hday := d.one_le_day
    have hday' := d.day_le
    have hplace : daysBeforeMonth ((2 + 9) % 12) = 337 := rfl
    rw [hfebruary] at hday'
    simp only [dayOfYear, countedYear, hfebruary, Nat.le_refl, if_true, Int.sub_add_cancel]
    omega
  · have hcount : (d.month + 9) % 12 + 1 ≤ 11 := by
      have := d.one_le_month
      have := d.month_le
      omega
    have hplace : d.dayOfYear < 337 := by
      unfold daysBeforeMonth at hmonth
      omega
    omega

/-- **Two days have two numbers.** -/
theorem number_injective : Function.Injective number := by
  intro d e h
  have hyear : d.countedYear = e.countedYear := by
    refine eq_of_daysBeforeYear_le (n := d.number) ?_ d.number_lt ?_ (h ▸ e.number_lt)
    · rw [number_eq]
      omega
    · rw [h, number_eq]
      omega
  have hplace : d.dayOfYear = e.dayOfYear := by
    rw [number_eq, number_eq, hyear] at h
    omega
  have hd := d.dayOfYear_lt_month
  have he := e.dayOfYear_lt_month
  have hmonth : (d.month + 9) % 12 = (e.month + 9) % 12 := by
    rw [hplace] at hd
    have hd' : daysBeforeMonth ((d.month + 9) % 12) ≤ e.dayOfYear := hplace ▸ Nat.le_add_right _ _
    have he' : daysBeforeMonth ((e.month + 9) % 12) ≤ e.dayOfYear := Nat.le_add_right _ _
    unfold daysBeforeMonth at hd he hd' he'
    omega
  have hmonth' : d.month = e.month := by
    have := d.one_le_month
    have := d.month_le
    have := e.one_le_month
    have := e.month_le
    omega
  have hday : d.day = e.day := by
    have := d.one_le_day
    have := e.one_le_day
    rw [dayOfYear, dayOfYear, hmonth] at hplace
    omega
  refine Day.ext ?_ hmonth' hday
  rw [countedYear, countedYear, hmonth'] at hyear
  split at hyear <;> omega

/-! ## Dates -/

/-- Whether the year of a day is in the range of the dates. -/
def InRange (d : Day) : Prop := firstYear ≤ d.year ∧ d.year ≤ lastYear

/-- The date that a day is, if its year is in the range. -/
def date? (d : Day) : Option Date := Date.of? d.year d.month d.day

theorem date?_eq_none : d.date? = none ↔ ¬ d.InRange := by
  rw [date?, Date.of?, dite_eq_right_iff]
  simp only [reduceCtorEq, imp_false]
  refine not_congr ⟨fun h => ⟨h.1, h.2.1⟩, fun h => ?_⟩
  exact ⟨h.1, h.2, d.one_le_month, d.month_le, d.one_le_day, d.day_le⟩

end Day

namespace Date

variable {d e : Date} {n days : Int}

theorem year_bounds (d : Date) : -262143 ≤ d.year ∧ d.year ≤ 262142 := ⟨d.isDate.1, d.isDate.2.1⟩

theorem one_le_month (d : Date) : 1 ≤ d.month := d.isDate.2.2.1

theorem month_le (d : Date) : d.month ≤ 12 := d.isDate.2.2.2.1

theorem one_le_day (d : Date) : 1 ≤ d.day := d.isDate.2.2.2.2.1

theorem day_le (d : Date) : d.day ≤ daysInMonth d.year d.month := d.isDate.2.2.2.2.2

/-- A date as a day. -/
def toDay (d : Date) : Day :=
  ⟨d.year, d.month, d.day, d.one_le_month, d.month_le, d.one_le_day, d.day_le⟩

theorem date?_eq_some {d : Day} {date : Date} : d.date? = some date ↔ date.toDay = d := by
  rw [Day.date?, of?]
  constructor
  · intro h
    split at h
    · cases h
      rfl
    · cases h
  · rintro rfl
    exact dif_pos date.isDate

theorem number_toDay (d : Date) : d.toDay.number = d.number := by
  have hmonth := d.one_le_month
  have hmonth' := d.month_le
  have hnumber : d.toDay.number = monthStart d.year d.month + (d.day - 1 : Nat) := rfl
  rw [hnumber, monthStart, number]
  by_cases h : d.month ≤ 2
  · rw [if_pos h, if_pos h, Nat.mod_eq_of_lt (by omega)]
  · have hcount : (d.month + 9) % 12 = d.month - 3 := by omega
    rw [if_neg h, if_neg h, hcount]

/-- **Every integer is the number of a day, and reading it as a date finds that day.** -/
theorem exists_number_eq (n : Int) : ∃ d : Day, d.number = n ∧ ofNumber? n = d.date? := by
  obtain ⟨hyear, hyear'⟩ := yearOfNumber_spec n
  rw [daysBeforeYear_succ] at hyear'
  rw [ofNumber?]
  rcases hparts : yearOfNumber n with ⟨y, k⟩
  rw [hparts] at hyear hyear'
  dsimp only at hyear hyear' ⊢
  have hfebruary := daysInMonth_february_le (y + 1)
  obtain ⟨hmonth, hmonth', htwelve⟩ := @monthOfDay_spec k (by omega)
  rcases hparts : monthOfDay k with ⟨m, r⟩
  rw [hparts] at hmonth hmonth' htwelve
  dsimp only at hmonth hmonth' htwelve ⊢
  split
  · next hten =>
    have hcount : (m + 3 + 9) % 12 = m := by omega
    have hlength := @daysBeforeMonth_succ (m + 3) y (by omega) (by omega) (by omega)
    rw [hcount] at hlength
    refine ⟨⟨y, m + 3, r + 1, by omega, by omega, by omega, by omega⟩, ?_, rfl⟩
    have hlate : ¬ m + 3 ≤ 2 := by omega
    rw [Day.number, monthStart, if_neg hlate, hcount]
    dsimp only
    omega
  · next hten =>
    have hcount : (m - 9 + 9) % 12 = m := by omega
    have hday : r + 1 ≤ daysInMonth (y + 1) (m - 9) := by
      by_cases hlast : m = 11
      · have hplace : daysBeforeMonth 11 = 337 := rfl
        subst hlast
        show r + 1 ≤ daysInMonth (y + 1) 2
        omega
      · have hlength := @daysBeforeMonth_succ (m - 9) (y + 1) (by omega) (by omega) (by omega)
        rw [hcount] at hlength
        omega
    refine ⟨⟨y + 1, m - 9, r + 1, by omega, by omega, by omega, hday⟩, ?_, rfl⟩
    have hearly : m - 9 ≤ 2 := by omega
    rw [Day.number, monthStart, if_pos hearly, hcount]
    dsimp only
    rw [Int.add_sub_cancel]
    omega

/-- **Reading a number as a date finds the day of the number, if it is in the range.** -/
theorem ofNumber?_number (d : Day) : ofNumber? d.number = d.date? := by
  obtain ⟨e, hnumber, hdate⟩ := exists_number_eq d.number
  rw [hdate, Day.number_injective hnumber]

/-- A year starts with a digit or a sign. -/
theorem exists_yearText_eq (year : Int) : ∃ c cs, yearText year = c :: cs ∧ c ≠ ':' := by
  rw [yearText]
  split
  · have hne : paddedDigits 4 year.toNat ≠ [] :=
      List.append_ne_nil_of_right_ne_nil _ (natDigits_ne_nil _)
    obtain ⟨c, cs, hdigits⟩ := List.exists_cons_of_ne_nil hne
    have hc : isDigit c = true := isDigit_of_mem_paddedDigits (hdigits ▸ List.mem_cons_self)
    refine ⟨c, cs, hdigits, ?_⟩
    rintro rfl
    exact absurd hc (by decide)
  · exact ⟨_, _, rfl, by split <;> decide⟩

/-! ## The date before -/

/-- A date is its year, month and day. -/
theorem eq_of_parts (hyear : d.year = e.year) (hmonth : d.month = e.month) (hday : d.day = e.day) :
    d = e := by
  obtain ⟨_, _, _, _⟩ := d
  obtain ⟨_, _, _, _⟩ := e
  subst hyear hmonth hday
  rfl

/-- A number is read as the date that has it. -/
theorem ofNumber?_eq_some : ofNumber? n = some d ↔ d.number = n := by
  rw [← number_toDay]
  constructor
  · intro h
    obtain ⟨day, rfl, hdate⟩ := exists_number_eq n
    rw [hdate, date?_eq_some] at h
    rw [h]
  · rintro rfl
    rw [ofNumber?_number, date?_eq_some]

/-- **A date is shifted to the one with the shifted number.** -/
theorem minusDays?_eq_some : d.minusDays? days = some e ↔ e.number = d.number - days :=
  ofNumber?_eq_some

theorem number_injective : Function.Injective number := by
  intro d e h
  have hd : ofNumber? e.number = some d := ofNumber?_eq_some.2 h
  exact Option.some.inj (hd.symm.trans (ofNumber?_eq_some.2 rfl))

/-- The first day of the range. -/
def first : Date := ⟨firstYear, 1, 1, by decide⟩

/-- **Only the first day of the range has none before it.** -/
theorem minusDays?_one_eq_none : d.minusDays? 1 = none ↔ d = first := by
  obtain ⟨p, hnumber, hdate⟩ := exists_number_eq (d.number - 1)
  have hnext : p.next = d.toDay := Day.number_injective (by
    rw [Day.number_next, hnumber, number_toDay]
    omega)
  have hyear := p.year_next
  have hbounds := d.year_bounds
  rw [hnext] at hyear
  rw [minusDays?, hdate, Day.date?_eq_none]
  constructor
  · intro hrange
    split at hyear
    · next hstart =>
      have hlast : d.year = p.year + 1 := hyear
      refine eq_of_parts ?_ hstart.1 hstart.2
      unfold Day.InRange firstYear lastYear at hrange
      show d.year = -262143
      omega
    · have hsame : d.year = p.year := hyear
      exact absurd ⟨hsame ▸ hbounds.1, hsame ▸ hbounds.2⟩ hrange
  · rintro rfl hrange
    have hlast : firstYear = p.year + 1 := hyear
    have hlow : firstYear ≤ p.year := hrange.1
    omega

/-- A day before is there except on the first day of the range. -/
theorem exists_number_eq_sub_one : (∃ e : Date, e.number = d.number - 1) ↔ d ≠ first := by
  rw [ne_eq, ← minusDays?_one_eq_none, ← ne_eq, Option.ne_none_iff_exists']
  exact exists_congr fun e => minusDays?_eq_some.symm

theorem before_eq (h : e.number = d.number - 1) : d.before = e := by
  rw [before, minusDays?_eq_some.2 h, Option.getD_some]

theorem before_first : first.before = first := by
  rw [before, minusDays?_one_eq_none.2 rfl, Option.getD_none]

end Date
end ReportQuery
