import ReportQuery.Macro.DateLiteral
import ReportQuery.Proofs.Calendar.Day
/-!
# The day that a date literal denotes

A date literal denotes one day of the calendar without bounds (`exists_denotes_iff`). Months are
counted in 64 and then in 32 bits, but what these do not hold is far outside the range of years, so
no count is cut off: a literal resolves to the date of its day where the year of that day is in the
range, and is out of range otherwise (`resolve_of_read`).
-/

namespace ReportQuery

open Calendar Text

namespace Date

variable {today : Date} {months year : Int} {month day : Nat}

/-! ## Months before a date -/

theorem of?_eq_none_of_year (h : year < -262143 ∨ 262142 < year) : of? year month day = none :=
  dif_neg fun hdate => h.elim (not_lt_of_ge hdate.1) (not_lt_of_ge hdate.2.1)

/-- A month before is found by its place among all months. -/
theorem minusMonths?_eq (hmonth : 1 ≤ month) (hmonth' : month ≤ 12)
    (h : 12 * year + month = 12 * today.year + today.month - months) :
    today.minusMonths? months = of? year month (min today.day (daysInMonth year month)) := by
  have htoday := today.one_le_month
  have hnumber : today.monthNumber - months = 12 * year + (month - 1 : Nat) := by
    rw [monthNumber]
    omega
  have hyear : (12 * year + ((month - 1 : Nat) : Int)) / 12 = year := by omega
  have hplace : ((12 * year + ((month - 1 : Nat) : Int)) % 12).toNat + 1 = month := by omega
  unfold minusMonths?
  dsimp only
  rw [hnumber, hyear, hplace]

/-- The first day of the month is a date where another day of the month is. -/
theorem bind_firstOfMonth? (hday : 1 ≤ day) (hday' : day ≤ daysInMonth year month) :
    (of? year month day).bind firstOfMonth? = of? year month 1 := by
  unfold of?
  by_cases h : IsDate year month day
  · rw [dif_pos h]
    rfl
  · have hfirst : ¬ IsDate year month 1 := fun hdate =>
      h ⟨hdate.1, hdate.2.1, hdate.2.2.1, hdate.2.2.2.1, hday, hday'⟩
    rw [dif_neg h, dif_neg hfirst]
    rfl

end Date

namespace DateLiteral

variable {name value : String} {today : Date} {l : DateLiteral} {d : Day} {n : Int64}

/-! ## Counts of months -/

theorem monthsOfYears?_eq_some {months : Int64} :
    monthsOfYears? n = some months ↔ months.toInt = 12 * n.toInt := by
  have hmin : Int64.minValue.toInt = -2 ^ 63 := rfl
  have hmax : Int64.maxValue.toInt = 2 ^ 63 - 1 := rfl
  have hlow := Int64.minValue_le_toInt months
  have hhigh := Int64.toInt_le months
  unfold monthsOfYears?
  rw [Option.ite_none_right_eq_some, Option.some.injEq]
  constructor
  · rintro ⟨⟨hlow, hhigh⟩, rfl⟩
    exact Int64.toInt_ofInt_of_le (by omega) (by omega)
  · intro h
    rw [← h]
    exact ⟨⟨hlow, hhigh⟩, Int64.ofInt_toInt months⟩

theorem monthsOfYears?_eq_none :
    monthsOfYears? n = none ↔ 12 * n.toInt < -2 ^ 63 ∨ 2 ^ 63 ≤ 12 * n.toInt := by
  have hmin : Int64.minValue.toInt = -2 ^ 63 := rfl
  have hmax : Int64.maxValue.toInt = 2 ^ 63 - 1 := rfl
  unfold monthsOfYears?
  rw [ite_eq_right_iff]
  simp only [reduceCtorEq, imp_false]
  omega

/-! ## The day -/

/-- **The day that a literal denotes**: a number of days before today; the first day of the month
that many months before the one of today; or the day of today in the year that many years before,
where 28 February stands for a 29 February that the year does not have. -/
def Denotes (today : Date) (l : DateLiteral) (d : Day) : Prop :=
  match l.period with
  | .day => d.number = today.toDay.number - l.distance.toInt
  | .month =>
    12 * d.year + d.month = 12 * today.year + today.month - l.distance.toInt ∧ d.day = 1
  | .year => d.year = today.year - l.distance.toInt ∧ d.month = today.month ∧
      d.day = if today.month = 2 ∧ today.day = 29 ∧ isLeap d.year = false then 28 else today.day

theorem denotes_day :
    Denotes today ⟨.day, n⟩ d ↔ d.number = today.toDay.number - n.toInt := Iff.rfl

theorem denotes_month : Denotes today ⟨.month, n⟩ d ↔
    12 * d.year + d.month = 12 * today.year + today.month - n.toInt ∧ d.day = 1 := Iff.rfl

theorem denotes_year : Denotes today ⟨.year, n⟩ d ↔
    d.year = today.year - n.toInt ∧ d.month = today.month ∧
      d.day = if today.month = 2 ∧ today.day = 29 ∧ isLeap d.year = false then 28 else today.day :=
  Iff.rfl

/-- The day of a date in another year, cut off at the end of the month. -/
theorem min_daysInMonth (today : Date) (year : Int) :
    min today.day (daysInMonth year today.month) =
      if today.month = 2 ∧ today.day = 29 ∧ isLeap year = false then 28 else today.day := by
  have hday := today.day_le
  by_cases hfebruary : today.month = 2
  · rw [hfebruary] at hday
    have hlast : today.day ≤ 29 := hday.trans (daysInMonth_february_le _)
    rw [hfebruary, daysInMonth_february]
    cases isLeap year with
    | true => simpa using hlast
    | false =>
      simp only [Bool.false_eq_true, if_false, true_and, and_true]
      split <;> omega
  · rw [if_neg fun h => hfebruary h.1]
    refine min_eq_left (hday.trans_eq ?_)
    simp only [daysInMonth, if_neg hfebruary]

/-- **A literal denotes one day.** -/
theorem exists_denotes_iff (today : Date) (l : DateLiteral) :
    ∃ d, ∀ e, Denotes today l e ↔ e = d := by
  obtain ⟨period, n⟩ := l
  cases period with
  | day =>
    obtain ⟨d, hnumber, -⟩ := Date.exists_number_eq (today.toDay.number - n.toInt)
    refine ⟨d, fun e => denotes_day.trans ?_⟩
    rw [← hnumber, Day.number_injective.eq_iff]
  | month =>
    obtain ⟨index, hindex⟩ : ∃ i, i = 12 * today.year + (today.month : Int) - 1 - n.toInt :=
      ⟨_, rfl⟩
    refine ⟨⟨index / 12, (index % 12).toNat + 1, 1, by omega, by omega, le_rfl,
      one_le_daysInMonth _ _⟩, fun e => denotes_month.trans ?_⟩
    have := e.one_le_month
    have := e.month_le
    rw [Day.ext_iff]
    dsimp only
    omega
  | year =>
    refine ⟨⟨today.year - n.toInt, today.month,
      min today.day (daysInMonth (today.year - n.toInt) today.month), today.one_le_month,
      today.month_le, le_min today.one_le_day (one_le_daysInMonth _ _), min_le_right _ _⟩,
      fun e => denotes_year.trans ?_⟩
    rw [Day.ext_iff]
    dsimp only
    rw [min_daysInMonth]
    exact and_congr_right fun hyear => by rw [hyear]

/-! ## The date -/

/-- Thirty-two bits hold every number of months that leads into the range. -/
theorem monthsBefore?_eq {months : Int64} {year : Int} {month : Nat} (hmonth : 1 ≤ month)
    (hmonth' : month ≤ 12)
    (h : 12 * year + month = 12 * today.year + today.month - months.toInt) :
    monthsBefore? today months = Date.of? year month (min today.day (daysInMonth year month)) := by
  have hsize : UInt32.size = 4294967296 := rfl
  have hyear := today.year_bounds
  have htoday := today.one_le_month
  have htoday' := today.month_le
  unfold monthsBefore?
  split
  · exact Date.minusMonths?_eq hmonth hmonth' h
  · exact (Date.of?_eq_none_of_year (by omega)).symm

/-- **The date of a literal is that of its day.** -/
theorem date?_eq (h : Denotes today l d) : l.date? today = d.date? := by
  have hmonth := d.one_le_month
  have hmonth' := d.month_le
  obtain ⟨period, n⟩ := l
  cases period with
  | day =>
    rw [denotes_day, Date.number_toDay] at h
    rw [← Date.ofNumber?_number, h]
    rfl
  | month =>
    obtain ⟨hindex, hday⟩ := denotes_month.mp h
    show (monthsBefore? today n).bind Date.firstOfMonth? = Date.of? d.year d.month d.day
    rw [monthsBefore?_eq hmonth hmonth' hindex, hday]
    exact Date.bind_firstOfMonth? (le_min today.one_le_day (one_le_daysInMonth _ _))
      (min_le_right _ _)
  | year =>
    obtain ⟨hyear, hsame, hday⟩ := denotes_year.mp h
    show (monthsOfYears? n).bind (monthsBefore? today) = Date.of? d.year d.month d.day
    cases hmonths : monthsOfYears? n with
    | none =>
      rw [monthsOfYears?_eq_none] at hmonths
      have htoday := today.year_bounds
      exact (Date.of?_eq_none_of_year (by omega)).symm
    | some months =>
      rw [monthsOfYears?_eq_some] at hmonths
      have hindex : 12 * d.year + d.month = 12 * today.year + today.month - months.toInt := by
        omega
      rw [Option.bind_some, monthsBefore?_eq hmonth hmonth' hindex, hday, hsame, min_daysInMonth]

/-! ## Resolving -/

/-- What a literal that is read resolves to. -/
theorem resolve_eq (h : read name value = .ok l) : resolve name value today =
    match l.date? today with
    | some date => .ok (String.ofList date.text)
    | none => .error (.dateOutOfRange name value) := by
  unfold resolve
  rw [h]
  rfl

/-- **A literal resolves to the date of the one day that it denotes if the year of that day is in
the range, and is out of range otherwise.** The text of the date starts with no colon. -/
theorem resolve_of_read (h : read name value = .ok l) (today : Date) :
    ∃ d, (∀ e, Denotes today l e ↔ e = d) ∧
      (d.InRange → ∃ date : Date, date.toDay = d ∧
        resolve name value today = .ok (String.ofList date.text) ∧ date.text.head? ≠ some ':') ∧
      (¬ d.InRange → resolve name value today = .error (.dateOutOfRange name value)) := by
  obtain ⟨d, hd⟩ := exists_denotes_iff today l
  have hdate : l.date? today = d.date? := date?_eq ((hd d).mpr rfl)
  refine ⟨d, hd, fun hrange => ?_, fun hrange => ?_⟩
  · cases hsome : d.date? with
    | none => exact absurd hrange (Day.date?_eq_none.mp hsome)
    | some date =>
      refine ⟨date, Date.date?_eq_some.mp hsome, ?_, ?_⟩
      · rw [resolve_eq h, hdate, hsome]
      · obtain ⟨c, cs, hyear, hc⟩ := Date.exists_yearText_eq date.year
        rw [Date.text, hyear]
        simpa using hc
  · rw [resolve_eq h, hdate, Day.date?_eq_none.mpr hrange]

/-- The year before a 29 February has a 28 February, and the most years that a literal can name
lead out of the range. -/
theorem resolve_of_read_leapDay :
    resolve "start" ":YYYY-1" ⟨2024, 2, 29, by decide⟩ = .ok "2023-02-28" ∧
      resolve "start" ":YYYY-9223372036854775807" ⟨2024, 2, 29, by decide⟩ =
        .error (.dateOutOfRange "start" ":YYYY-9223372036854775807") := by
  constructor
  · have hread : read "start" ":YYYY-1" = .ok ⟨.year, 1⟩ := by decide
    obtain ⟨d, hd, hdate, -⟩ := resolve_of_read hread ⟨2024, 2, 29, by decide⟩
    have hday : ⟨2023, 2, 28, by decide, by decide, by decide, by decide⟩ = d :=
      (hd _).mp (denotes_year.mpr ⟨by decide, by decide, by decide⟩)
    subst hday
    obtain ⟨date, hday, hresolve, -⟩ := hdate ⟨by decide, by decide⟩
    have hvalue : date = ⟨2023, 2, 28, by decide⟩ :=
      Option.some.inj ((Date.date?_eq_some.mpr hday).symm.trans rfl)
    rw [hresolve, hvalue]
    cbv
  · have hread : read "start" ":YYYY-9223372036854775807" = .ok ⟨.year, 9223372036854775807⟩ := by
      decide
    obtain ⟨d, hd, -, hrange⟩ := resolve_of_read hread ⟨2024, 2, 29, by decide⟩
    obtain ⟨hyear, -, -⟩ := denotes_year.mp ((hd d).mpr rfl)
    refine hrange fun h => ?_
    have hfirst : firstYear ≤ d.year := h.1
    rw [hyear] at hfirst
    exact absurd hfirst (by decide)

end DateLiteral
end ReportQuery
