import ReportQuery.Decimal.Binary64
import ReportQuery.Text.Integer
/-!
# The fewest digits that read back

A double stands for all reals that round to it. Among the decimals in that
interval, the shortest has the fewest significant digits, and of two with as few
digits it is the nearer one. The search walks the decimal grids from coarse to
fine and tests the two neighbours of the value on each, in exact arithmetic.
-/

namespace ReportQuery.Decimal

open ReportQuery.Text (natDigits)

/-- The number `coefficient * 10 ^ exponent`. -/
structure Scientific where
  coefficient : Nat
  exponent : Int
deriving DecidableEq

/-- The reals that round to a double: those between `low / den` and `high / den`,
ends included where `closed`. The double itself is `value / den`. -/
structure Interval where
  value : Nat
  low : Nat
  high : Nat
  den : Nat
  closed : Bool

/-- The interval of the double `mantissa * 2 ^ exponent`. The next lower double is
only half as far away where the mantissa is the least of its binade. -/
def Interval.ofDouble (mantissa : Nat) (exponent : Int) : Interval :=
  let unit := Nat.pow 2 (exponent - 2).toNat
  let below := if mantissa = leastNormal ∧ -1074 < exponent then 1 else 2
  { value := 4 * mantissa * unit
    low := (4 * mantissa - below) * unit
    high := (4 * mantissa + 2) * unit
    den := Nat.pow 2 (2 - exponent).toNat
    closed := mantissa % 2 = 0 }

/-- Measures an interval in units of `10 ^ k`. -/
def Interval.inUnits (i : Interval) (k : Int) : Interval :=
  let up := Nat.pow 10 (-k).toNat
  { i with
    value := i.value * up
    low := i.low * up
    high := i.high * up
    den := i.den * Nat.pow 10 k.toNat }

/-- Whether the integer `n` lies in the interval. -/
def Interval.holds (i : Interval) (n : Nat) : Bool :=
  if i.closed then i.low ≤ n * i.den && n * i.den ≤ i.high
  else i.low < n * i.den && n * i.den < i.high

/-- The integer in the interval that is nearest to the value, if there is one
beside the value. Of two at one distance, `tieUp` says whether the greater is
taken, else the even one is. -/
def Interval.nearest? (i : Interval) (tieUp : Bool) : Option Nat :=
  let n := i.value / i.den
  let below := i.value - n * i.den
  let above := (n + 1) * i.den - i.value
  match i.holds n, i.holds (n + 1) with
  | false, false => none
  | true, false => some n
  | false, true => some (n + 1)
  | true, true =>
    if below < above then some n
    else if above < below then some (n + 1)
    else if tieUp || n % 2 = 1 then some (n + 1) else some n

/-- The power of ten above a positive quotient: `num / den < 10 ^ p`, and not less
than `10 ^ (p - 1)`. -/
def pointPosition (num den : Nat) : Int :=
  if den ≤ num then (natDigits (num / den)).length
  else 1 - ((natDigits ((den - 1) / num)).length : Int)

/-- Moves trailing zeros of the coefficient into the exponent. -/
def Scientific.normalize : (fuel : Nat) → Scientific → Scientific
  | 0, d => d
  | fuel + 1, d =>
    if d.coefficient ≠ 0 ∧ d.coefficient % 10 = 0 then
      normalize fuel ⟨d.coefficient / 10, d.exponent + 1⟩
    else d

/-- The first hit on the grids with `digits`, `digits + 1`, … significant digits. -/
def Interval.search (i : Interval) (tieUp : Bool) (point : Int) :
    (fuel : Nat) → (digits : Nat) → Scientific
  | 0, digits => ⟨i.value / i.den, point - digits⟩
  | fuel + 1, digits =>
    let k := point - digits
    match (i.inUnits k).nearest? tieUp with
    | some n => ⟨n, k⟩
    | none => i.search tieUp point fuel (digits + 1)

/-- The shortest decimal that reads back as the positive double
`mantissa * 2 ^ exponent`. Seventeen digits always suffice. -/
def shortest (tieUp : Bool) (mantissa : Nat) (exponent : Int) : Scientific :=
  let i := Interval.ofDouble mantissa exponent
  (i.search tieUp (pointPosition i.value i.den) 17 1).normalize 20

end ReportQuery.Decimal
