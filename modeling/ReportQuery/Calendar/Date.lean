import ReportQuery.Text.Integer
/-!
# Dates

Dates of the Gregorian calendar, extended to all years from -262143 to 262142. A
date can be moved by days or by months; a move that would leave the range of
years has no result.

Days are counted from 1 March of the year 0, so that the leap day is the last day of
a counted year.
-/

namespace ReportQuery

open ReportQuery.Text

namespace Calendar

/-- The first year of the range. -/
def firstYear : Int := -262143

/-- The last year of the range. -/
def lastYear : Int := 262142

/-- Whether a year has a 29 February. -/
def isLeap (year : Int) : Bool := year % 4 = 0 && (year % 100 ≠ 0 || year % 400 = 0)

/-- The number of days of a month, counted from 1. -/
def daysInMonth (year : Int) (month : Nat) : Nat :=
  if month = 2 then (if isLeap year then 29 else 28)
  else if month = 4 ∨ month = 6 ∨ month = 9 ∨ month = 11 then 30
  else 31

/-- Whether a year of the range has this month and day. -/
def IsDate (year : Int) (month day : Nat) : Prop :=
  firstYear ≤ year ∧ year ≤ lastYear ∧ 1 ≤ month ∧ month ≤ 12 ∧ 1 ≤ day ∧
    day ≤ daysInMonth year month

instance (year : Int) (month day : Nat) : Decidable (IsDate year month day) :=
  inferInstanceAs (Decidable (_ ∧ _))

/-- The number of days from March to the first of a month, where March is 0. -/
def daysBeforeMonth (month : Nat) : Nat := (153 * month + 2) / 5

/-- The number of days from 1 March of the year 0 to 1 March of a year. -/
def daysBeforeYear (year : Int) : Int := 365 * year + year / 4 - year / 100 + year / 400

end Calendar

open Calendar

/-- A date. -/
structure Date where
  year : Int
  month : Nat
  day : Nat
  isDate : IsDate year month day

/-- The instant of a clock: a date and a time of day. -/
structure Instant where
  date : Date
  hour : Nat
  minute : Nat
  second : Nat

namespace Date

/-- The date of a year, month and day, if there is one in the range. -/
def of? (year : Int) (month day : Nat) : Option Date :=
  if h : IsDate year month day then some ⟨year, month, day, h⟩ else none

/-- The number of a day, counted from 1 March of the year 0. -/
def number (d : Date) : Int :=
  if d.month ≤ 2 then
    daysBeforeYear (d.year - 1) + daysBeforeMonth (d.month + 9) + (d.day - 1 : Nat)
  else daysBeforeYear d.year + daysBeforeMonth (d.month - 3) + (d.day - 1 : Nat)

/-- The month that a day of the year lies in and its place there, both from 0, where
the year starts with March. -/
def monthOfDay (day : Nat) : Nat × Nat :=
  let month := (5 * day + 2) / 153
  (month, day - daysBeforeMonth month)

/-- The year that a day lies in and its place there, from 0. Years start with March;
they are found by taking off cycles of 400, 100, 4 and 1 years, of which the last
hundred and the last single year of their cycle may be a day longer. -/
def yearOfNumber (n : Int) : Int × Nat :=
  let cycle := n / 146097
  let inCycle := (n % 146097).toNat
  let century := min 3 (inCycle / 36524)
  let inCentury := inCycle - 36524 * century
  let four := inCentury / 1461
  let inFour := inCentury % 1461
  let single := min 3 (inFour / 365)
  (400 * cycle + (100 * century + 4 * four + single : Nat), inFour - 365 * single)

/-- The date of a number, if it is in the range. -/
def ofNumber? (n : Int) : Option Date :=
  let (year, dayOfYear) := yearOfNumber n
  let (month, day) := monthOfDay dayOfYear
  if month < 10 then of? year (month + 3) (day + 1) else of? (year + 1) (month - 9) (day + 1)

/-- The date that lies this many days before. -/
def minusDays? (d : Date) (days : Int) : Option Date := ofNumber? (d.number - days)

/-- The number of a month, counted from January of the year 0. -/
def monthNumber (d : Date) : Int := 12 * d.year + (d.month - 1 : Nat)

/-- The date that lies this many months before. Where the month is too short, it is
the last day of the month. -/
def minusMonths? (d : Date) (months : Int) : Option Date :=
  let n := d.monthNumber - months
  let year := n / 12
  let month := (n % 12).toNat + 1
  of? year month (min d.day (daysInMonth year month))

/-- The first day of the month. -/
def firstOfMonth? (d : Date) : Option Date := of? d.year d.month 1

/-- The day before, or the first day of the range, which has none before it. -/
def before (d : Date) : Date := (d.minusDays? 1).getD d

/-- A year has four digits; beyond these it has a sign and at least four digits. -/
def yearText (year : Int) : List Char :=
  if 0 ≤ year ∧ year ≤ 9999 then paddedDigits 4 year.toNat
  else (if year < 0 then '-' else '+') :: paddedDigits 4 year.natAbs

/-- The text of a date, with dashes. -/
def text (d : Date) : List Char :=
  yearText d.year ++ '-' :: (paddedDigits 2 d.month ++ '-' :: paddedDigits 2 d.day)

/-- The text of a date, without dashes. -/
def compact (d : Date) : List Char :=
  yearText d.year ++ paddedDigits 2 d.month ++ paddedDigits 2 d.day

end Date

/-- The text of an instant. -/
def Instant.text (i : Instant) : List Char :=
  i.date.text ++ ' ' :: (paddedDigits 2 i.hour ++ ':' :: (paddedDigits 2 i.minute ++
    ':' :: paddedDigits 2 i.second))

/-- Midnight at the start of a date. -/
def Instant.midnight (d : Date) : Instant := ⟨d, 0, 0, 0⟩

end ReportQuery
