import ReportQuery.Json.Basic
import ReportQuery.Text.Integer
/-!
# Reading data values

Reads the text of a data value and nothing after it but blanks. A part of the text may
have the form of a value and still denote none: a number beyond the range of doubles,
a text with half a surrogate pair, an array or object more than 127 levels deep. `skim?`
takes such a part as not-a-number, which no text denotes, so that a reader can pass over
parts that it does not look at. `read?` refuses it.

A number with a point or an exponent is its first nineteen or so digits, as a double,
scaled by one power of ten.
-/

namespace ReportQuery.Json

open ReportQuery.Text

/-- The blanks between tokens. -/
def isSpace (c : Char) : Bool := c = ' ' || c = '\n' || c = '\t' || c = '\r'

/-- What is left of a text after its blanks. -/
def skipSpace (text : List Char) : List Char := text.dropWhile isSpace

/-- What stands for a part that denotes no value. -/
def valueless : Json := .number (.double (0 / 0))

/-! ## Numbers -/

/-- Digits are taken into the significand while it fits in 64 bits. Returns the
significand, the number of digits taken, and the rest. -/
def significandDigits (significand taken : Nat) : List Char → Nat × Nat × List Char
  | [] => (significand, taken, [])
  | c :: cs =>
    if isDigit c ∧ 10 * significand + digitValue c < UInt64.size then
      significandDigits (10 * significand + digitValue c) (taken + 1) cs
    else (significand, taken, c :: cs)

/-- Scales a significand by a power of ten: one multiplication or division by the
nearest double of the power. Powers beyond the range of doubles are divided off
308 places at a time. A product beyond the range is not-a-number. -/
def scale : (fuel : Nat) → Float → (exponent : Int) → Float
  | 0, x, _ => x
  | fuel + 1, x, exponent =>
    if exponent.natAbs ≤ 308 then
      if 0 ≤ exponent then
        let scaled := x * Float.ofScientific 1 false exponent.natAbs
        if scaled == 1 / 0 then 0 / 0 else scaled
      else x / Float.ofScientific 1 false exponent.natAbs
    else if x == 0 then x
    else if 0 ≤ exponent then 0 / 0
    else scale fuel (x / Float.ofScientific 1 false 308) (exponent + 308)

/-- The double with this sign, significand and power of ten. -/
def scaled (negative : Bool) (significand : Nat) (exponent : Int) : JsonNumber :=
  let x := scale 8 (Float.ofNat significand) exponent
  .double (if negative then -x else x)

/-- The exponent part of a number, after its mark. An exponent of more than 31 bits
leaves the range of doubles, or leads to zero. -/
def withExponent? (negative : Bool) (significand : Nat) (exponent : Int) (text : List Char) :
    Option (JsonNumber × List Char) :=
  let (down, text) := match text with
    | '-' :: rest => (true, rest)
    | '+' :: rest => (false, rest)
    | rest => (false, rest)
  match text.span isDigit with
  | ([], _) => none
  | (digits, rest) =>
    let size := digitsValue 0 digits
    if 0x80000000 ≤ size then
      if significand ≠ 0 ∧ !down then some (.double (0 / 0), rest)
      else some (.double (if negative then -0.0 else 0.0), rest)
    else
      some (scaled negative significand (if down then exponent - size else exponent + size), rest)

/-- What may follow the digits of a number: an exponent, or nothing. -/
def afterDigits? (negative : Bool) (significand : Nat) (exponent : Int) :
    List Char → Option (JsonNumber × List Char)
  | c :: rest =>
    if c = 'e' ∨ c = 'E' then withExponent? negative significand exponent rest
    else some (scaled negative significand exponent, c :: rest)
  | [] => some (scaled negative significand exponent, [])

/-- The fraction of a number, after its point. Digits beyond the significand are
dropped. -/
def withFraction? (negative : Bool) (significand : Nat) (exponent : Int) (text : List Char) :
    Option (JsonNumber × List Char) :=
  match text with
  | c :: _ =>
    if isDigit c then
      let (significand, taken, rest) := significandDigits significand 0 text
      afterDigits? negative significand (exponent - taken) (rest.dropWhile isDigit)
    else none
  | [] => none

/-- What may follow the integer part of a number, of which `dropped` digits did not fit. A
number that ends here is an integer if it fits in 64 bits. -/
def afterInteger? (negative : Bool) (significand dropped : Nat) (text : List Char) :
    Option (JsonNumber × List Char) :=
  match text with
  | '.' :: rest => withFraction? negative significand dropped rest
  | 'e' :: _ | 'E' :: _ => afterDigits? negative significand dropped text
  | rest =>
    if dropped ≠ 0 then some (scaled negative significand dropped, rest)
    else if !negative then some (.natural significand.toUInt64, rest)
    else if significand = 0 ∨ 0x8000000000000000 < significand then
      some (.double (-(Float.ofNat significand)), rest)
    else some (.negative (Int64.ofInt (-(significand : Int))), rest)

/-- A number, after its sign. No digit follows a zero in front. -/
def number? (negative : Bool) (text : List Char) : Option (JsonNumber × List Char) :=
  match text with
  | [] => none
  | '0' :: rest =>
    if rest.head?.any isDigit then none else afterInteger? negative 0 0 rest
  | c :: _ =>
    if isDigit c then
      let (significand, _, rest) := significandDigits 0 0 text
      let (dropped, rest) := rest.span isDigit
      afterInteger? negative significand dropped.length rest
    else none

/-! ## Texts -/

/-- The number of four hexadecimal digits. -/
def hexUnit? (a b c d : Char) : Option Nat := do
  let a ← hexValue? a
  let b ← hexValue? b
  let c ← hexValue? c
  let d ← hexValue? d
  return ((a * 16 + b) * 16 + c) * 16 + d

/-- The code point of a short escape, by the character after the backslash. -/
def escapeUnit? : Char → Option Nat
  | '"' => some 0x22
  | '\\' => some 0x5C
  | '/' => some 0x2F
  | 'b' => some 0x08
  | 'f' => some 0x0C
  | 'n' => some 0x0A
  | 'r' => some 0x0D
  | 't' => some 0x09
  | _ => none

/-- The units of a quoted text, after its opening quote: the code points of its characters,
and the numbers that its escapes give. Those already read come last first. -/
def units? (read : List Nat) : List Char → Option (List Nat × List Char)
  | [] => none
  | '"' :: rest => some (read.reverse, rest)
  | '\\' :: 'u' :: a :: b :: c :: d :: rest =>
    match hexUnit? a b c d with
    | some unit => units? (unit :: read) rest
    | none => none
  | '\\' :: e :: rest =>
    match escapeUnit? e with
    | some unit => units? (unit :: read) rest
    | none => none
  | c :: rest => if c.toNat < 0x20 then none else units? (c.toNat :: read) rest

/-- Whether a unit is the first half of a surrogate pair. -/
def isHighHalf (unit : Nat) : Bool := 0xD800 ≤ unit && unit < 0xDC00

/-- Whether a unit is the second half of a surrogate pair. -/
def isLowHalf (unit : Nat) : Bool := 0xDC00 ≤ unit && unit < 0xE000

/-- The characters of units: a surrogate pair is one character, and half a pair is none. -/
def ofUnits? : List Nat → Option (List Char)
  | [] => some []
  | [unit] => if isHighHalf unit || isLowHalf unit then none else some [Char.ofNat unit]
  | unit :: next :: rest =>
    if isHighHalf unit && isLowHalf next then
      (ofUnits? rest).map fun cs =>
        Char.ofNat (0x10000 + (unit - 0xD800) * 0x400 + (next - 0xDC00)) :: cs
    else if isHighHalf unit || isLowHalf unit then none
    else (ofUnits? (next :: rest)).map fun cs => Char.ofNat unit :: cs

/-- A quoted text, after its opening quote, if it denotes one; and the rest. -/
def quoted? (text : List Char) : Option (Option String × List Char) :=
  (units? [] text).map fun (units, rest) => ((ofUnits? units).map String.ofList, rest)

/-! ## Values -/

/-- The object of members, if all of them have a name. -/
def objectOf (members : List (Option String × Json)) : Json :=
  match members.mapM fun m => m.1.map fun name => (name, m.2) with
  | some members => .object members
  | none => valueless

/-- A value with parts, if there are levels left for it. -/
def within (levels : Nat) (j : Json) : Json := if levels = 0 then valueless else j

mutual

/-- A value at the start of a text, and the rest. -/
def value? : (fuel levels : Nat) → List Char → Option (Json × List Char)
  | 0, _, _ => none
  | fuel + 1, levels, text =>
    match skipSpace text with
    | 'n' :: 'u' :: 'l' :: 'l' :: rest => some (.null, rest)
    | 't' :: 'r' :: 'u' :: 'e' :: rest => some (.bool true, rest)
    | 'f' :: 'a' :: 'l' :: 's' :: 'e' :: rest => some (.bool false, rest)
    | '"' :: rest => (quoted? rest).map fun (s, rest) => ((s.map .string).getD valueless, rest)
    | '-' :: rest => (number? true rest).map fun (n, rest) => (.number n, rest)
    | '[' :: rest =>
      match skipSpace rest with
      | ']' :: rest => some (within levels (.array []), rest)
      | rest => (items? fuel (levels - 1) [] rest).map fun (j, rest) => (within levels j, rest)
    | '{' :: rest =>
      match skipSpace rest with
      | '}' :: rest => some (within levels (.object []), rest)
      | rest => (members? fuel (levels - 1) [] rest).map fun (j, rest) => (within levels j, rest)
    | rest => (number? false rest).map fun (n, rest) => (.number n, rest)

/-- The items of an array that follow those already read. -/
def items? : (fuel levels : Nat) → (read : List Json) → List Char → Option (Json × List Char)
  | 0, _, _, _ => none
  | fuel + 1, levels, read, text =>
    match value? fuel levels text with
    | none => none
    | some (item, rest) =>
      match skipSpace rest with
      | ',' :: rest => items? fuel levels (item :: read) rest
      | ']' :: rest => some (.array (item :: read).reverse, rest)
      | _ => none

/-- The members of an object that follow those already read. -/
def members? : (fuel levels : Nat) → (read : List (Option String × Json)) → List Char →
    Option (Json × List Char)
  | 0, _, _, _ => none
  | fuel + 1, levels, read, text =>
    match skipSpace text with
    | '"' :: rest =>
      match quoted? rest with
      | none => none
      | some (name, rest) =>
        match skipSpace rest with
        | ':' :: rest =>
          match value? fuel levels rest with
          | none => none
          | some (value, rest) =>
            match skipSpace rest with
            | ',' :: rest => members? fuel levels ((name, value) :: read) rest
            | '}' :: rest => some (objectOf ((name, value) :: read).reverse, rest)
            | _ => none
        | _ => none
    | _ => none

end

/-- The value of a text; parts that denote none are not-a-number. -/
def skim? (text : List Char) : Option Json :=
  match value? (text.length + 1) 127 text with
  | some (value, rest) => if rest.all isSpace then some value else none
  | none => none

mutual

/-- Whether no part of a value is not-a-number. -/
def isWhole : Json → Bool
  | number (.double x) => !x.isNaN
  | array items => areWhole items
  | object members => haveWhole members
  | _ => true

/-- Whether all items are whole. -/
def areWhole : List Json → Bool
  | [] => true
  | item :: items => isWhole item && areWhole items

/-- Whether the values of all members are whole. -/
def haveWhole : List (String × Json) → Bool
  | [] => true
  | (_, value) :: members => isWhole value && haveWhole members

end

/-- The value that a text denotes. -/
def read? (text : List Char) : Option Json := (skim? text).filter isWhole

end ReportQuery.Json
