import ReportQuery.Decimal.Shortest
/-!
# Notations for doubles

Two ways to write the shortest digits of a double. The plain notation never has
an exponent and drops a point that no digit follows. The notation of data files
always shows a point or an exponent, and writes very large and very small numbers
with an exponent.
-/

namespace ReportQuery.Decimal

open ReportQuery.Text

/-- Writes `digits` with the point after the first `point` of them, filled up with
zeros on either side. -/
def positional (digits : List Char) (point : Int) : List Char :=
  if point ≤ 0 then '0' :: '.' :: (List.replicate (-point).toNat '0' ++ digits)
  else if (digits.length : Int) ≤ point then
    digits ++ List.replicate (point.toNat - digits.length) '0'
  else digits.take point.toNat ++ '.' :: digits.drop point.toNat

/-- A text with a minus sign in front, or as it is. -/
def signed (negative : Bool) (text : List Char) : List Char :=
  if negative then '-' :: text else text

/-- The plain notation: no exponent, no needless point, the sign of zero kept. -/
def plain (x : Float) : List Char :=
  match unpack x with
  | .nan => ['N', 'a', 'N']
  | .infinite negative => signed negative ['i', 'n', 'f']
  | .finite negative 0 _ => signed negative ['0']
  | .finite negative mantissa exponent =>
    let d := shortest true mantissa exponent
    let digits := natDigits d.coefficient
    signed negative (positional digits (digits.length + d.exponent))

/-- Exponential notation with one digit before the point. -/
def exponential (digits : List Char) (exponent : Int) : List Char :=
  let fraction := match digits.drop 1 with
    | [] => []
    | ds => '.' :: ds
  let sign := if exponent < 0 then '-' else '+'
  digits.take 1 ++ fraction ++ 'e' :: sign :: natDigits exponent.natAbs

/-- The notation of data files, for a finite double: positional with a point from
`0.00001` up to sixteen digits before the point, else exponential. -/
def data (x : Float) : List Char :=
  match unpack x with
  | .nan | .infinite _ => ['n', 'u', 'l', 'l']
  | .finite negative 0 _ => signed negative ['0', '.', '0']
  | .finite negative mantissa exponent =>
    let d := shortest false mantissa exponent
    let digits := natDigits d.coefficient
    let point : Int := digits.length + d.exponent
    signed negative <|
      if -5 < point ∧ point ≤ 16 then
        let text := positional digits point
        if '.' ∈ text then text else text ++ ['.', '0']
      else exponential digits (point - 1)

end ReportQuery.Decimal
