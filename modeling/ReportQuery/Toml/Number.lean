import ReportQuery.Decimal.Reader
import ReportQuery.Text.Basic
import ReportQuery.Toml.Basic
/-!
# Numbers of settings files

Single underscores can stand between digits. A decimal integer starts with no needless
zero; hexadecimal, octal and binary integers have no sign. An integer fits in 128 bits, with
or without sign. A number with a point or an exponent is a double, and must not be beyond
the range of doubles.
-/

namespace ReportQuery.Toml

open ReportQuery.Text

/-- The value of a digit in a base up to 16. -/
def digitIn? (base : Nat) (c : Char) : Option Nat :=
  (hexValue? c).filter fun v => v < base

/-- Digits without the underscores between them. -/
def digits? (base : Nat) (text : List Char) : Option (List Char) :=
  let groups := cells '_' text
  if groups.all fun g => g ≠ [] ∧ g.all fun c => (digitIn? base c).isSome then some groups.flatten
  else none

/-- The number of digits in a base. -/
def valueIn (base : Nat) (digits : List Char) : Nat :=
  digits.foldl (fun n c => base * n + (hexValue? c).getD 0) 0

/-- Decimal digits that start with no needless zero. -/
def wholeDigits? (text : List Char) : Option (List Char) :=
  (digits? 10 text).filter fun ds => ds.head? ≠ some '0' ∨ ds.length = 1

/-- A sign and what follows it; `true` stands for minus. -/
def signed (text : List Char) : Bool × List Char :=
  match text with
  | '-' :: rest => (true, rest)
  | '+' :: rest => (false, rest)
  | _ => (false, text)

/-- An integer. -/
def integer? (text : List Char) : Option Int :=
  match text with
  | '0' :: 'x' :: rest => (digits? 16 rest).map fun ds => valueIn 16 ds
  | '0' :: 'o' :: rest => (digits? 8 rest).map fun ds => valueIn 8 ds
  | '0' :: 'b' :: rest => (digits? 2 rest).map fun ds => valueIn 2 ds
  | _ =>
    let (negative, body) := signed text
    (wholeDigits? body).map fun ds =>
      if negative then -(valueIn 10 ds : Int) else valueIn 10 ds

/-- A text before a mark and, if it has the mark, after it. -/
def cutAt (isMark : Char → Bool) (text : List Char) : List Char × Option (List Char) :=
  match text.span fun c => !isMark c with
  | (before, _ :: after) => (before, some after)
  | (before, []) => (before, none)

/-- The digits of an optional part of a number; a part that is left out is a zero. -/
def partDigits? : Option (List Char) → Option (List Char)
  | none => some ['0']
  | some part => digits? 10 part

/-- The size of a double with a point or an exponent. -/
def unsignedDouble? (text : List Char) : Option Float := do
  let (mantissa, exponent) := cutAt (fun c => c = 'e' || c = 'E') text
  let (whole, fraction) := cutAt (fun c => c = '.') mantissa
  if fraction.isNone && exponent.isNone then none
  else
    let (down, size) := match exponent.map signed with
      | some (down, size) => (down, some size)
      | none => (false, none)
    let whole ← wholeDigits? whole
    let fraction ← partDigits? fraction
    let size ← partDigits? size
    let e : Int := valueIn 10 size
    let x := Decimal.ofDigits whole fraction (if down then -e else e)
    if x == 1 / 0 then none else some x

/-- A double: a number, an infinity or not-a-number. -/
def double? (text : List Char) : Option Float :=
  let (negative, body) := signed text
  let size := match String.ofList body with
    | "inf" => some (1 / 0)
    | "nan" => some (0 / 0)
    | _ => unsignedDouble? body
  size.map fun x => if negative then -x else x

/-- The characters of numbers and truth values. -/
def isWordChar (c : Char) : Bool :=
  isAsciiLetter c || isDigit c || c = '_' || c = '+' || c = '-' || c = '.'

/-- A truth value or a number that is the whole text. -/
def word? (text : List Char) : Option Toml :=
  match String.ofList text with
  | "true" => some (.bool true)
  | "false" => some (.bool false)
  | _ =>
    match integer? text with
    | some n =>
      if -0x80000000000000000000000000000000 ≤ n ∧ n < 0x100000000000000000000000000000000 then
        some (.integer n)
      else none
    | none => (double? text).map .double

end ReportQuery.Toml
