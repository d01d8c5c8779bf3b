import ReportQuery.Decimal.Reader
import ReportQuery.Json.Writer
/-!
# Values in templates

How a data value is written into a text, when it counts as true, and how two values
compare. Numbers of different kinds are compared exactly.
-/

namespace ReportQuery.Template

open ReportQuery.Text

mutual

/-- The text of a value where it is written out: an array stands in brackets, an object
is not shown. -/
def shown : Json → List Char
  | .null => []
  | .string s => s.toList
  | .array items => '[' :: (join [',', ' '] (shownItems items) ++ [']'])
  | .object _ => ['[', 'o', 'b', 'j', 'e', 'c', 't', ']']
  | other => other.compact

/-- The texts of items. -/
def shownItems : List Json → List (List Char)
  | [] => []
  | item :: items => shown item :: shownItems items

end

mutual

/-- The text of a value as the argument of a helper: an array is its items with commas
between them, an object is its compact text. -/
def plain : Json → List Char
  | .null => []
  | .string s => s.toList
  | .array items => join [','] (plainItems items)
  | other => other.compact

/-- The texts of items. -/
def plainItems : List Json → List (List Char)
  | [] => []
  | item :: items => plain item :: plainItems items

end

/-- The double nearest to a number. -/
def numberValue : JsonNumber → Float
  | .natural n => n.toFloat
  | .negative n => n.toFloat
  | .double x => x

/-- The least positive double with a full mantissa. -/
def leastNormal : Float := Float.ofScientific 22250738585072014 true 324

/-- Whether a value counts as true. Zero does if `zero` says so; otherwise a number must
not be smaller than the least double with a full mantissa. -/
def isTrue (zero : Bool) : Json → Bool
  | .null => false
  | .bool b => b
  | .number n => zero || leastNormal ≤ (numberValue n).abs
  | .string s => s ≠ ""
  | .array items => !items.isEmpty
  | .object members => !members.isEmpty

/-- The integer of a number that is written as one. -/
def integer? : JsonNumber → Option Int
  | .natural n => some n.toNat
  | .negative n => some n.toInt
  | .double _ => none

/-- The order of two doubles. -/
def orderDoubles (x y : Float) : Option Ordering :=
  if x < y then some .lt else if x == y then some .eq else if y < x then some .gt else none

/-- The order of an integer and a double. -/
def orderMixed (i : Int) (x : Float) : Option Ordering :=
  match Decimal.unpack x with
  | .finite negative mantissa exponent =>
    let m : Int := if negative then -mantissa else mantissa
    if 0 ≤ exponent then some (compare i (m * Nat.pow 2 exponent.toNat))
    else some (compare (i * Nat.pow 2 (-exponent).toNat) m)
  | .infinite negative => some (if negative then .gt else .lt)
  | .nan => none

/-- The order of two numbers. -/
def orderNumbers (a b : JsonNumber) : Option Ordering :=
  match integer? a, integer? b with
  | some i, some j => some (compare i j)
  | some i, none => orderMixed i (numberValue b)
  | none, some j => (orderMixed j (numberValue a)).map Ordering.swap
  | none, none => orderDoubles (numberValue a) (numberValue b)

/-- The order of a number and a text that is one. -/
def orderNumberText (a : JsonNumber) (s : String) : Option Ordering :=
  (Decimal.readFloat? s.toList).bind fun y => orderDoubles (numberValue a) y

/-- The order of two values: of numbers, of texts character by character, of truth
values with `false` first, and of a number and a text that is one. -/
def order : Json → Json → Option Ordering
  | .number a, .number b => orderNumbers a b
  | .string a, .string b => some (if a < b then .lt else if a = b then .eq else .gt)
  | .bool a, .bool b => some (compare a b)
  | .number a, .string b => orderNumberText a b
  | .string a, .number b => (orderNumberText b a).map Ordering.swap
  | _, _ => none

/-- Whether two numbers are the same: of the same kind, and equal. -/
def sameNumber : JsonNumber → JsonNumber → Bool
  | .natural a, .natural b => a == b
  | .negative a, .negative b => a == b
  | .double x, .double y => x == y
  | _, _ => false

mutual

/-- Whether two values are the same. -/
def same : Json → Json → Bool
  | .null, .null => true
  | .bool a, .bool b => a == b
  | .number a, .number b => sameNumber a b
  | .string a, .string b => a == b
  | .array xs, .array ys => sameItems xs ys
  | .object xs, .object ys => sameMembers xs ys
  | _, _ => false

/-- Whether two lists of items are the same. -/
def sameItems : List Json → List Json → Bool
  | [], [] => true
  | x :: xs, y :: ys => same x y && sameItems xs ys
  | _, _ => false

/-- Whether two lists of members are the same. -/
def sameMembers : List (String × Json) → List (String × Json) → Bool
  | [], [] => true
  | (m, x) :: xs, (n, y) :: ys => m == n && same x y && sameMembers xs ys
  | _, _ => false

end

end ReportQuery.Template
