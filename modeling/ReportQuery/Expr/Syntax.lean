/-!
# Expressions

The trees of the expression language: arithmetic, comparisons, logic, a conditional
and calls. Binary operators have levels; an operator of a higher level binds
tighter.
-/

namespace ReportQuery

/-- The operators before an operand. -/
inductive UnaryOp where
  | neg
  | plus
  | not
deriving DecidableEq

/-- The operators between two operands. -/
inductive BinaryOp where
  | add
  | sub
  | mul
  | div
  | mod
  | pow
  | eq
  | ne
  | lt
  | le
  | gt
  | ge
  | and
  | or
deriving DecidableEq

namespace BinaryOp

/-- The text of an operator. -/
def symbol : BinaryOp → String
  | add => "+"
  | sub => "-"
  | mul => "*"
  | div => "/"
  | mod => "%"
  | pow => "^"
  | eq => "=="
  | ne => "!="
  | lt => "<"
  | le => "<="
  | gt => ">"
  | ge => ">="
  | and => "and"
  | or => "or"

/-- How tight an operator binds. Between the levels 5 and 7 stand the operators before
an operand. -/
def level : BinaryOp → Nat
  | or => 1
  | and => 2
  | eq | ne | lt | le | gt | ge => 3
  | add | sub => 4
  | mul | div | mod => 5
  | pow => 7

end BinaryOp

/-- An expression. -/
inductive Expr where
  | number (x : Float)
  | text (s : String)
  | bool (b : Bool)
  /-- The value of a macro. -/
  | var (name : String)
  | unary (op : UnaryOp) (operand : Expr)
  | binary (op : BinaryOp) (left right : Expr)
  | call (function : String) (args : List Expr)
  | conditional (cond yes no : Expr)

namespace Expr

section Induction

variable {P : Expr → Prop} (number : ∀ x, P (.number x)) (text : ∀ s, P (.text s))
  (bool : ∀ b, P (.bool b)) (var : ∀ name, P (.var name))
  (unary : ∀ op e, P e → P (.unary op e))
  (binary : ∀ op l r, P l → P r → P (.binary op l r))
  (call : ∀ f args, (∀ arg ∈ args, P arg) → P (.call f args))
  (conditional : ∀ c y n, P c → P y → P n → P (.conditional c y n))

include number text bool var unary binary call conditional

/-- What holds of an expression when it holds of its parts, holds of every expression. The
parts of a call are its arguments. -/
@[elab_as_elim]
theorem induction : (e : Expr) → P e
  | .number x => number x
  | .text s => text s
  | .bool b => bool b
  | .var name => var name
  | .unary op e => unary op e (induction e)
  | .binary op l r => binary op l r (induction l) (induction r)
  | .call f args => call f args fun arg _ => induction arg
  | .conditional c y n => conditional c y n (induction c) (induction y) (induction n)

end Induction

end Expr
end ReportQuery
