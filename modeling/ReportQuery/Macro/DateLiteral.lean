import ReportQuery.Calendar.Date
import ReportQuery.Macro.Error
import ReportQuery.Macro.Value
/-!
# Date literals

A date literal is a colon, a period, and an optional distance after a dash: days,
months or years before today. A negative distance leads into the future. Blanks may
stand before the colon, around the dash and at the end, and the period is written in
any case.
-/

namespace ReportQuery

open ReportQuery.Text

/-- The unit of a date literal. -/
inductive Period where
  | day
  | month
  | year
deriving DecidableEq

/-- A date literal: the date this many periods before today. -/
structure DateLiteral where
  period : Period
  distance : Int64
deriving DecidableEq

namespace DateLiteral

/-- Whether a macro value is resolved as a date. Only values that start with the upper
case form of the shortest period are. -/
def isMarked (value : List Char) : Bool := (after? [':', 'Y', 'Y', 'Y', 'Y'] value).isSome

/-- The period at the start of a text: the longest of the three. -/
def period? (text : List Char) : Option (Period × List Char) :=
  match afterKeyword? ['y', 'y', 'y', 'y'] text with
  | none => none
  | some rest =>
    match afterKeyword? ['m', 'm'] rest with
    | none => some (.year, rest)
    | some rest' =>
      match afterKeyword? ['d', 'd'] rest' with
      | none => some (.month, rest')
      | some rest'' => some (.day, rest'')

/-- The distance that follows a period. It stands on one line, and is 0 if it is left
out. -/
def distance? (text : List Char) : Option Int64 :=
  match trimStart text with
  | [] => some 0
  | '-' :: rest =>
    if '\n' ∈ rest then none
    else if trim rest = [] then some 0
    else readInt64? (trim rest)
  | _ => none

/-- Reads a date literal. -/
def read? (value : List Char) : Option DateLiteral :=
  match trimStart value with
  | ':' :: rest =>
    match period? rest with
    | none => none
    | some (period, rest) => (distance? rest).map fun distance => ⟨period, distance⟩
  | _ => none

/-- The months of a number of years, if 64 bits hold them. -/
def monthsOfYears? (years : Int64) : Option Int64 :=
  let months := 12 * years.toInt
  if Int64.minValue.toInt ≤ months ∧ months ≤ Int64.maxValue.toInt then
    some (Int64.ofInt months)
  else none

/-- The date that lies this many months before. The number of months is held, without its
sign, in 32 bits. -/
def monthsBefore? (today : Date) (months : Int64) : Option Date :=
  if months.toInt.natAbs < UInt32.size then today.minusMonths? months.toInt else none

/-- The date of a literal, if it is in the range. A month is its first day; a year keeps
the month and the day, except for a 29 February that the year does not have. -/
def date? (today : Date) (l : DateLiteral) : Option Date :=
  match l.period with
  | .day => today.minusDays? l.distance.toInt
  | .month => (monthsBefore? today l.distance).bind Date.firstOfMonth?
  | .year => (monthsOfYears? l.distance).bind (monthsBefore? today)

/-- Reads the literal of a named macro. -/
def read (name value : String) : Except MacroError DateLiteral :=
  match read? value.toList with
  | some l => .ok l
  | none => .error (.dateFormat name value)

/-- The text of the date that the literal of a named macro denotes. -/
def resolve (name value : String) (today : Date) : Except MacroError String := do
  let l ← read name value
  match l.date? today with
  | some d => .ok (String.ofList d.text)
  | none => .error (.dateOutOfRange name value)

end DateLiteral
end ReportQuery
