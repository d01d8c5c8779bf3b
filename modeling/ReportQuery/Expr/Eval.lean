import ReportQuery.Calendar.Date
import ReportQuery.Expr.Error
import ReportQuery.Expr.Parse
import ReportQuery.Expr.Value
import ReportQuery.Text.Casing
/-!
# Evaluating expressions

Expressions see the macros and a clock, and change nothing. `and`, `or` and the
conditional evaluate only the parts that they need; calls evaluate all arguments
before the name of the function is looked up.
-/

namespace ReportQuery

open ReportQuery.Text ReportQuery.Decimal

/-- What an expression sees. -/
structure Scope where
  macros : Macros
  now : Instant

namespace Value

/-- The number of an operand or argument of an operation. -/
def asNumber (operation : String) (v : Value) : Except ExprError Float :=
  match v.number? with
  | some x => .ok x
  | none => .error (.typeMismatch operation v.typeName)

/-- Whether a value is a text. -/
def isText : Value → Bool
  | text _ => true
  | _ => false

/-- Equality: of numbers where both values have one, else of their texts. -/
def equals (l r : Value) : Bool :=
  match l.number?, r.number? with
  | some x, some y => x == y
  | _, _ => l.display = r.display

/-- The order of two doubles; `none` if one is not a number. -/
def compareNumbers (x y : Float) : Option Ordering :=
  if x < y then some .lt else if x == y then some .eq else if y < x then some .gt else none

/-- The order of two texts, character by character. -/
def compareTexts (a b : String) : Ordering :=
  if a < b then .lt else if a = b then .eq else .gt

/-- The order of two values: of numbers where both have one, else of texts. -/
def order (operation : String) (l r : Value) : Except ExprError (Option Ordering) :=
  match l.number?, r.number? with
  | some x, some y => .ok (compareNumbers x y)
  | ln, _ =>
    match l, r with
    | text a, text b => .ok (some (compareTexts a b))
    | _, _ =>
      .error (.typeMismatch operation (if ln.isNone then l.typeName else r.typeName))

/-- Whether an order satisfies a comparison. Nothing is ordered to not-a-number. -/
def holds (op : BinaryOp) : Option Ordering → Bool
  | none => false
  | some o =>
    match op with
    | .lt => o.isLT
    | .le => o.isLE
    | .gt => o.isGT
    | _ => o.isGE

/-- Raises a number to an integral power by repeated squaring; the bits of the exponent
are taken from the lowest. -/
def squaring : (fuel : Nat) → (base product : Float) → (exponent : Nat) → Float
  | 0, _, product, _ => product
  | fuel + 1, base, product, exponent =>
    let product := if exponent % 2 = 1 then product * base else product
    if exponent / 2 = 0 then product else squaring fuel (base * base) product (exponent / 2)

/-- Ten to an integral power; a negative power is the reciprocal. -/
def powerOfTen (exponent : Int) : Float :=
  let power := squaring 64 10 1 exponent.natAbs
  if exponent < 0 then 1 / power else power

/-- The remainder with the sign of the divisor. -/
def floorMod (x y : Float) : Float := x - y * round .floor (x / y)

/-- An operation on two numbers. -/
def arithmetic (op : BinaryOp) (x y : Float) : Except ExprError Float :=
  match op with
  | .add => .ok (x + y)
  | .sub => .ok (x - y)
  | .mul => .ok (x * y)
  | .div => if y == 0 then .error .divisionByZero else .ok (x / y)
  | .mod => if y == 0 then .error .divisionByZero else .ok (floorMod x y)
  | _ => .ok (x.pow y)

/-- A binary operation on two values. `+` joins texts where one side is a text and not
both are numbers. -/
def binary (op : BinaryOp) (l r : Value) : Except ExprError Value :=
  match op with
  | .eq => .ok (bool (equals l r))
  | .ne => .ok (bool !(equals l r))
  | .lt | .le | .gt | .ge => do return bool (holds op (← order op.symbol l r))
  | _ =>
    if op = .add ∧ (l.number?.isNone ∨ r.number?.isNone) ∧ (l.isText ∨ r.isText) then
      .ok (text (String.ofList (l.display ++ r.display)))
    else do
      let x ← asNumber op.symbol l
      let y ← asNumber op.symbol r
      return number (← arithmetic op x y)

/-- A unary operation on a value. -/
def unary (op : UnaryOp) (v : Value) : Except ExprError Value :=
  match op with
  | .not => .ok (bool !v.isTrue)
  | .neg => do return number (-(← v.asNumber "-"))
  | .plus => do return number (← v.asNumber "+")

end Value

/-! ## Functions -/

namespace Builtin

/-- The sign: 0 of either zero, not-a-number of itself. -/
def sign (x : Float) : Float :=
  if x == 0 then 0 else if x < 0 then -1 else if 0 < x then 1 else x

/-- The functions of one number. -/
def ofNumber? : String → Option (Float → Float)
  | "abs" => some Float.abs
  | "ceil" => some (round .ceiling)
  | "floor" => some (round .floor)
  | "trunc" => some (round .truncate)
  | "sqrt" => some Float.sqrt
  | "exp" => some Float.exp
  | "log" => some Float.log
  | "log10" => some Float.log10
  | "sign" => some sign
  | _ => none

/-- Refuses a number of arguments outside `least` to `most`. -/
def checkCount (function expected : String) (least most : Nat) (args : List Value) :
    Except ExprError Unit :=
  if least ≤ args.length ∧ args.length ≤ most then .ok ()
  else .error (.arity function expected args.length)

/-- Rounds to a number of places; the number is cut off at the 32-bit range. -/
def roundTo (x places : Float) : Float :=
  let limit : Int := 0x80000000
  let whole : Int := match unpack places with
    | .infinite negative => if negative then -limit else limit - 1
    | _ => max (-limit) (min (limit - 1) (toInteger places))
  let factor := Value.powerOfTen whole
  round .nearest (x * factor) / factor

/-- The least or greatest of two numbers; not-a-number gives way. -/
def extreme (least : Bool) (x y : Float) : Float :=
  if x.isNaN then y
  else if least then (if y < x then y else x)
  else if x < y then y else x

/-- The least or greatest number of a list of arguments. -/
def extremeOf (function : String) (least : Bool) (soFar : Float) :
    List Value → Except ExprError Float
  | [] => .ok soFar
  | v :: vs => do extremeOf function least (extreme least soFar (← v.asNumber function)) vs

/-- A number of days, without its fraction, of at most a thousand million. -/
def dayCount (x : Float) : Except ExprError Int :=
  match unpack x with
  | .finite _ _ _ =>
    if x.abs ≤ 1e9 then .ok (toInteger x) else .error .dateOutOfRange
  | _ => .error .dateOutOfRange

/-- The text of the date that lies this many days after today. -/
def dateAfter (now : Instant) (days : Int) : Except ExprError Value :=
  match now.date.minusDays? (-days) with
  | some d => .ok (.text (String.ofList d.text))
  | none => .error .dateOutOfRange

/-- The value of a call. -/
def call (now : Instant) (function : String) (args : List Value) : Except ExprError Value :=
  match ofNumber? function with
  | some f => do
    checkCount function "1" 1 1 args
    return .number (f (← (args.headD (.bool false)).asNumber function))
  | none =>
    match function, args with
    | "round", [v] => do return .number (roundTo (← v.asNumber function) 0)
    | "round", [v, places] => do
      let x ← v.asNumber function
      return .number (roundTo x (← places.asNumber function))
    | "round", args => .error (.arity function "1 or 2" args.length)
    | "pow", [base, exponent] => do
      let x ← base.asNumber function
      return .number (x.pow (← exponent.asNumber function))
    | "pow", args => .error (.arity function "2" args.length)
    | "mod", [l, r] => Value.binary .mod l r
    | "mod", args => .error (.arity function "2" args.length)
    | "min", v :: vs => do return .number (← extremeOf function true (← v.asNumber function) vs)
    | "max", v :: vs => do return .number (← extremeOf function false (← v.asNumber function) vs)
    | "min", [] | "max", [] => .error (.arity function "at least 1" 0)
    | "upper", [v] => .ok (.text (String.ofList (upper v.display)))
    | "lower", [v] => .ok (.text (String.ofList (lower v.display)))
    | "len", [v] => .ok (.number (Float.ofNat v.display.length))
    | "upper", args | "lower", args | "len", args => .error (.arity function "1" args.length)
    | "concat", args => .ok (.text (String.ofList (args.flatMap Value.display)))
    | "today", [] => dateAfter now 0
    | "today", [v] => do dateAfter now (← dayCount (← v.asNumber function))
    | "today", args => .error (.arity function "0 or 1" args.length)
    | "yesterday", [] => dateAfter now (-1)
    | "now", [] => .ok (.text (String.ofList now.text))
    | "yesterday", args | "now", args => .error (.arity function "0" args.length)
    | _, _ => .error (.unknownFunction function)

end Builtin

/-! ## Trees -/

namespace Expr

/-- The value of a name: of a macro, or of one of the two constants. -/
def lookup (scope : Scope) (name : String) : Except ExprError Value :=
  match scope.macros.find? name with
  | some m => .ok (.ofMacro m)
  | none =>
    if name = "pi" then .ok (.number 3.141592653589793)
    else if name = "e" then .ok (.number 2.718281828459045)
    else .error (.unknownVariable name)

mutual

/-- The value of an expression. -/
def eval (scope : Scope) : Expr → Except ExprError Value
  | number x => .ok (.number x)
  | text s => .ok (.text s)
  | bool b => .ok (.bool b)
  | var name => lookup scope name
  | unary op e => do Value.unary op (← eval scope e)
  | binary .and l r => do
    if (← eval scope l).isTrue then return .bool (← eval scope r).isTrue
    else return .bool false
  | binary .or l r => do
    if (← eval scope l).isTrue then return .bool true
    else return .bool (← eval scope r).isTrue
  | binary op l r => do
    let l ← eval scope l
    let r ← eval scope r
    Value.binary op l r
  | call function args => do Builtin.call scope.now function (← evalAll scope args)
  | conditional c y n => do
    if (← eval scope c).isTrue then eval scope y else eval scope n

/-- The values of arguments, from left to right. -/
def evalAll (scope : Scope) : List Expr → Except ExprError (List Value)
  | [] => .ok []
  | e :: es => do
    let v ← eval scope e
    return v :: (← evalAll scope es)

end

/-- The value of a text that is an expression. -/
def evaluate (scope : Scope) (source : List Char) : Except ExprError Value :=
  match parse source with
  | .error offset => .error (.syntactic offset)
  | .ok e => eval scope e

end Expr
end ReportQuery
