/-!
# Binary floating-point numbers taken apart

A finite double is a natural number times a power of two. The rounding functions
of the expression language are exact on that form, so they are defined on it.
-/

namespace ReportQuery.Decimal

/-- A double as a number: not a number, an infinity, or a signed natural number
times a power of two. -/
inductive Binary64 where
  | nan
  | infinite (negative : Bool)
  | finite (negative : Bool) (mantissa : Nat) (exponent : Int)
deriving DecidableEq

/-- The least mantissa of a double whose exponent is not the least one, `2 ^ 52`. -/
def leastNormal : Nat := 0x10000000000000

/-- Takes a double apart. The mantissa is below `2 ^ 53`, and at least `2 ^ 52`
unless the exponent is the least one. -/
def unpack (x : Float) : Binary64 :=
  let bits : Nat := x.toBits.toNat
  let negative := decide (0x8000000000000000 ≤ bits)
  let fraction : Nat := bits % leastNormal
  let scale : Nat := bits / leastNormal % 2048
  if scale = 2047 then
    if fraction = 0 then .infinite negative else .nan
  else if scale = 0 then .finite negative fraction (-1074)
  else .finite negative (leastNormal + fraction) ((scale : Int) - 1075)

/-- The double of a signed integer of at most 53 bits. -/
def ofInteger (negative : Bool) (magnitude : Nat) : Float :=
  if negative then -(Float.ofNat magnitude) else Float.ofNat magnitude

/-- The double nearest to a 64-bit integer. -/
def ofInt64 (i : Int64) : Float :=
  let magnitude := i.toInt.natAbs.toUInt64.toFloat
  if i < 0 then -magnitude else magnitude

/-- The integer part of a nonnegative number `mantissa * 2 ^ exponent`. -/
def integerPart (mantissa : Nat) (exponent : Int) : Nat :=
  if 0 ≤ exponent then mantissa * Nat.pow 2 exponent.toNat
  else mantissa / Nat.pow 2 (-exponent).toNat

/-- Whether `mantissa * 2 ^ exponent` is an integer. -/
def isIntegral (mantissa : Nat) (exponent : Int) : Bool :=
  0 ≤ exponent || mantissa % Nat.pow 2 (-exponent).toNat = 0

/-- Whether the part of `mantissa * 2 ^ exponent` after the point is at least one
half. -/
def reachesHalf (mantissa : Nat) (exponent : Int) : Bool :=
  exponent < 0 &&
    Nat.pow 2 (-exponent).toNat ≤ 2 * (mantissa % Nat.pow 2 (-exponent).toNat)

/-- The ways to round a number to an integer. -/
inductive Rounding where
  /-- Toward zero. -/
  | truncate
  /-- Toward negative infinity. -/
  | floor
  /-- Toward positive infinity. -/
  | ceiling
  /-- To the nearest integer, halves away from zero. -/
  | nearest
deriving DecidableEq

/-- Rounds a double to an integer. The sign is kept, of a zero too. -/
def round (mode : Rounding) (x : Float) : Float :=
  match unpack x with
  | .nan | .infinite _ => x
  | .finite negative mantissa exponent =>
    if isIntegral mantissa exponent then x
    else
      let whole := integerPart mantissa exponent
      let away := match mode with
        | .truncate => false
        | .floor => negative
        | .ceiling => !negative
        | .nearest => reachesHalf mantissa exponent
      ofInteger negative (if away then whole + 1 else whole)

/-- The integer part of a finite double, toward zero; zero for all others. -/
def toInteger (x : Float) : Int :=
  match unpack x with
  | .nan | .infinite _ => 0
  | .finite negative mantissa exponent =>
    let whole := integerPart mantissa exponent
    if negative then -(whole : Int) else whole

end ReportQuery.Decimal
