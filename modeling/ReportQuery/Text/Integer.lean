import ReportQuery.Text.Basic
/-!
# Decimal integers

Integers are written as an optional sign and one or more ASCII digits, and are
held as 64-bit integers. A text that denotes an integer beyond their range is not
read.
-/

namespace ReportQuery.Text

/-- The number that a run of digits denotes, after the digits already read. -/
def digitsValue (soFar : Nat) (digits : List Char) : Nat :=
  digits.foldl (fun n d => 10 * n + digitValue d) soFar

/-- Reads one or more ASCII digits and nothing else. -/
def readNat? (text : List Char) : Option Nat :=
  if text ≠ [] ∧ text.all isDigit then some (digitsValue 0 text) else none

/-- Reads an optional sign and one or more ASCII digits. -/
def readInt? : List Char → Option Int
  | '+' :: digits => (readNat? digits).map Int.ofNat
  | '-' :: digits => (readNat? digits).map fun n => -(n : Int)
  | digits => (readNat? digits).map Int.ofNat

/-- Reads an integer of the 64-bit range. -/
def readInt64? (text : List Char) : Option Int64 :=
  (readInt? text).bind fun n =>
    if Int64.minValue.toInt ≤ n ∧ n ≤ Int64.maxValue.toInt then some (Int64.ofInt n) else none

/-- The decimal digits of a number. -/
def natDigits (n : Nat) : List Char := Nat.toDigits 10 n

/-- The shortest decimal text of an integer. -/
def intDigits : Int → List Char
  | .ofNat n => natDigits n
  | .negSucc n => '-' :: natDigits (n + 1)

/-- Decimal digits of a number, with zeros in front up to a width. -/
def paddedDigits (width : Nat) (n : Nat) : List Char :=
  let digits := natDigits n
  List.replicate (width - digits.length) '0' ++ digits

end ReportQuery.Text
