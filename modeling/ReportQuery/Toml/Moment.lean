import ReportQuery.Calendar.Date
/-!
# Dates and times of settings files

A date, a time of day, or a date and a time with an optional offset. Between date and
time stands a `T` or a space; seconds are never left out, and can have a fraction. A
moment is held as its text in the normal form: with `T` and `Z` in upper case and without
zeros at the end of the fraction, of which nine digits count.
-/

namespace ReportQuery.Toml

open ReportQuery.Text

/-- A number of exactly `count` digits at the start of a text. -/
def fixedDigits? (count : Nat) (text : List Char) : Option (Nat × List Char) :=
  let digits := text.take count
  if digits.length = count ∧ digits.all isDigit then
    some (digitsValue 0 digits, text.drop count)
  else none

/-- What follows a character. -/
def afterChar? (c : Char) : List Char → Option (List Char)
  | d :: rest => if c = d then some rest else none
  | [] => none

/-- A date at the start of a text, with its text. -/
def date? (text : List Char) : Option (List Char × List Char) := do
  let (year, rest) ← fixedDigits? 4 text
  let (month, rest) ← fixedDigits? 2 (← afterChar? '-' rest)
  let (day, rest) ← fixedDigits? 2 (← afterChar? '-' rest)
  let date ← Date.of? year month day
  return (date.text, rest)

/-- A fraction of a second without zeros at its end, with its point. -/
def fractionText (digits : List Char) : List Char :=
  match ((digits.take 9).reverse.dropWhile fun c => c = '0').reverse with
  | [] => []
  | kept => '.' :: kept

/-- A time of day at the start of a text, with its text. -/
def time? (text : List Char) : Option (List Char × List Char) := do
  let (hour, rest) ← fixedDigits? 2 text
  let (minute, rest) ← fixedDigits? 2 (← afterChar? ':' rest)
  let (second, rest) ← fixedDigits? 2 (← afterChar? ':' rest)
  if 23 < hour ∨ 59 < minute ∨ 60 < second then none
  else
    let whole := paddedDigits 2 hour ++ ':' :: (paddedDigits 2 minute ++
      ':' :: paddedDigits 2 second)
    match rest with
    | '.' :: fraction =>
      let digits := fraction.takeWhile isDigit
      if digits = [] then none
      else return (whole ++ fractionText digits, fraction.dropWhile isDigit)
    | _ => return (whole, rest)

/-- An offset at the start of a text, with its text. -/
def offset? (text : List Char) : Option (List Char × List Char) :=
  match text with
  | 'Z' :: rest | 'z' :: rest => some (['Z'], rest)
  | sign :: rest =>
    if sign = '+' ∨ sign = '-' then do
      let (hours, rest) ← fixedDigits? 2 rest
      let (minutes, rest) ← fixedDigits? 2 (← afterChar? ':' rest)
      if 23 < hours ∨ 59 < minutes then none
      else
        let sign := if hours = 0 ∧ minutes = 0 then '+' else sign
        return (sign :: (paddedDigits 2 hours ++ ':' :: paddedDigits 2 minutes), rest)
    else some ([], text)
  | [] => some ([], [])

/-- Whether a time of day starts here, as far as the first colon. -/
def startsTime (text : List Char) : Bool :=
  match fixedDigits? 2 text with
  | some (_, ':' :: _) => true
  | _ => false

/-- Whether a date starts here, as far as the first dash. -/
def startsDate (text : List Char) : Bool :=
  match fixedDigits? 4 text with
  | some (_, '-' :: _) => true
  | _ => false

/-- The time and offset that follow a date. -/
def timeAfterDate? (text : List Char) : Option (List Char × List Char) :=
  let time (rest : List Char) : Option (List Char × List Char) := do
    let (time, rest) ← time? rest
    let (offset, rest) ← offset? rest
    return ('T' :: (time ++ offset), rest)
  match text with
  | 'T' :: rest | 't' :: rest => time rest
  | ' ' :: rest => if startsTime rest then time rest else some ([], text)
  | _ => some ([], text)

/-- A date, a time of day or both at the start of a text, with its text. -/
def moment? (text : List Char) : Option (List Char × List Char) :=
  if startsTime text then time? text
  else do
    let (date, rest) ← date? text
    let (time, rest) ← timeAfterDate? rest
    return (date ++ time, rest)

end ReportQuery.Toml
