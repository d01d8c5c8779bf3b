import ReportQuery.Text.Integer
/-!
# Reading decimal numbers

A decimal text is read as an exact number, a natural number times a power of ten,
and then rounded once to the nearest double. Exponents far outside the range of
doubles are cut off before the power is computed; the result is zero or an
infinity in any case.
-/

namespace ReportQuery.Decimal

open ReportQuery.Text

/-- The double nearest to `coefficient * 10 ^ exponent`. -/
def nearestDouble (coefficient : Nat) (exponent : Int) : Float :=
  let point : Int := (natDigits coefficient).length + exponent
  if coefficient = 0 ∨ point < -400 then 0
  else if 400 < point then 1 / 0
  else Float.ofScientific coefficient (exponent < 0) exponent.natAbs

/-- The digits at the start of a text, and the rest. -/
def digitRun (text : List Char) : List Char × List Char := text.span isDigit

/-- An exponent at the start of a text: its value and the rest. A mark that no
digit follows is no exponent. -/
def exponent? : List Char → Option (Int × List Char)
  | mark :: rest =>
    if mark = 'e' ∨ mark = 'E' then
      let (negative, rest) := match rest with
        | '-' :: rest => (true, rest)
        | '+' :: rest => (false, rest)
        | rest => (false, rest)
      match digitRun rest with
      | ([], _) => none
      | (digits, rest) =>
        let size : Int := digitsValue 0 digits
        some (if negative then -size else size, rest)
    else none
  | [] => none

/-- The number with these digits before and after the point, times a power of
ten. -/
def ofDigits (whole fraction : List Char) (exponent : Int) : Float :=
  nearestDouble (digitsValue 0 (whole ++ fraction)) (exponent - fraction.length)

/-- Digits with an optional point and exponent, and nothing else. At least one
digit stands before or after the point. -/
def unsignedNumber? (text : List Char) : Option Float :=
  let (whole, rest) := digitRun text
  let (fraction, rest) := match rest with
    | '.' :: rest => digitRun rest
    | rest => ([], rest)
  if whole = [] ∧ fraction = [] then none
  else match rest with
    | [] => some (ofDigits whole fraction 0)
    | rest => match exponent? rest with
      | some (e, []) => some (ofDigits whole fraction e)
      | _ => none

/-- A number, an infinity or not-a-number by name in any case, without a sign. -/
def unsigned? (text : List Char) : Option Float :=
  match String.ofList (text.map Char.toLower) with
  | "inf" | "infinity" => some (1 / 0)
  | "nan" => some (0 / 0)
  | _ => unsignedNumber? text

/-- Reads an optional sign and a number, with nothing before or after. -/
def readFloat? : List Char → Option Float
  | '+' :: text => unsigned? text
  | '-' :: text => (unsigned? text).map fun x => -x
  | text => unsigned? text

end ReportQuery.Decimal
