import ReportQuery.Expr.Syntax
import ReportQuery.Expr.Token
/-!
# Reading expressions

```text
ternary := or ('?' ternary ':' ternary)?
or      := and ('or' and)*
and     := cmp ('and' cmp)*
cmp     := add (('==' | '!=' | '<' | '<=' | '>' | '>=') add)?
add     := mul (('+' | '-') mul)*
mul     := unary (('*' | '/' | '%') unary)*
unary   := ('-' | '+' | 'not') unary | pow
pow     := primary ('^' unary)?
primary := number | text | 'true' | 'false' | name | name '(' args ')' | '(' ternary ')'
```

The reader takes one token at a time. What has been read and still waits for a
right part stands in a stack of frames; a token that binds less tight closes the frames
that bind tighter. A token that no expression can have at its place is refused at
once, so the place of an error is the first such token, or the end.
-/

namespace ReportQuery

open ReportQuery.Text

namespace Expr

/-- A part of an expression that waits for what stands to its right. -/
inductive Frame where
  | unary (op : UnaryOp)
  | left (operand : Expr) (op : BinaryOp)
  | paren
  /-- A call with the arguments before the one that is read, last first. -/
  | call (function : String) (before : List Expr)
  /-- A conditional between `?` and `:`. -/
  | yes (cond : Expr)
  /-- A conditional after `:`. -/
  | no (cond yes : Expr)

/-- What the reader waits for. -/
inductive State where
  /-- An operand. -/
  | operand (stack : List Frame)
  /-- The first argument of a call, or its closing parenthesis. -/
  | args (function : String) (stack : List Frame)
  /-- A name has been read, of a variable or of a function. -/
  | name (s : String) (stack : List Frame)
  /-- An operand has been read. -/
  | complete (e : Expr) (stack : List Frame)

/-- Closes the operators that bind at least as tight as `level`. -/
def close (level : Nat) : Expr → List Frame → Expr × List Frame
  | e, .unary op :: stack =>
    if level ≤ 6 then close level (.unary op e) stack else (e, .unary op :: stack)
  | e, .left l op :: stack =>
    if level ≤ op.level then close level (.binary op l e) stack else (e, .left l op :: stack)
  | e, stack => (e, stack)

/-- Closes all operators and the conditionals that have both their parts. -/
def settle : Expr → List Frame → Expr × List Frame
  | e, .unary op :: stack => settle (.unary op e) stack
  | e, .left l op :: stack => settle (.binary op l e) stack
  | e, .no c y :: stack => settle (.conditional c y e) stack
  | e, stack => (e, stack)

/-- The binary operator of a token. -/
def binaryOp? : Token → Option BinaryOp
  | .and => some .and
  | .or => some .or
  | .symbol .plus => some .add
  | .symbol .minus => some .sub
  | .symbol .star => some .mul
  | .symbol .slash => some .div
  | .symbol .percent => some .mod
  | .symbol .caret => some .pow
  | .symbol .equal => some .eq
  | .symbol .notEqual => some .ne
  | .symbol .less => some .lt
  | .symbol .lessEqual => some .le
  | .symbol .greater => some .gt
  | .symbol .greaterEqual => some .ge
  | _ => none

/-- The unary operator of a token. -/
def unaryOp? : Token → Option UnaryOp
  | .not => some .not
  | .symbol .minus => some .neg
  | .symbol .plus => some .plus
  | _ => none

/-- A binary operator after an operand. Comparisons do not chain. -/
def pushOperator (op : BinaryOp) (e : Expr) (stack : List Frame) : Option State :=
  if op.level = 3 then
    match close 4 e stack with
    | (e, .left l op' :: stack) =>
      if op'.level = 3 then none else some (.operand (.left e op :: .left l op' :: stack))
    | (e, stack) => some (.operand (.left e op :: stack))
  else
    -- A power is read from right to left, so it closes nothing.
    let (e, stack) := close (if op = .pow then 8 else op.level) e stack
    some (.operand (.left e op :: stack))

/-- A token where an operand must stand. -/
def startOperand (t : Token) (stack : List Frame) : Option State :=
  match t with
  | .number x => some (.complete (.number x) stack)
  | .text s => some (.complete (.text s) stack)
  | .bool b => some (.complete (.bool b) stack)
  | .name s => some (.name s stack)
  | .symbol .parenOpen => some (.operand (.paren :: stack))
  | t => (unaryOp? t).map fun op => .operand (.unary op :: stack)

/-- A token after an operand. -/
def afterOperand (t : Token) (e : Expr) (stack : List Frame) : Option State :=
  match t with
  | .symbol .question =>
    let (e, stack) := close 1 e stack
    some (.operand (.yes e :: stack))
  | .symbol .colon =>
    match settle e stack with
    | (e, .yes c :: stack) => some (.operand (.no c e :: stack))
    | _ => none
  | .symbol .comma =>
    match settle e stack with
    | (e, .call f before :: stack) => some (.operand (.call f (e :: before) :: stack))
    | _ => none
  | .symbol .parenClose =>
    match settle e stack with
    | (e, .paren :: stack) => some (.complete e stack)
    | (e, .call f before :: stack) => some (.complete (.call f (e :: before).reverse) stack)
    | _ => none
  | t => (binaryOp? t).bind fun op => pushOperator op e stack

/-- Takes one token; `none` if no expression has it at this place. -/
def step (t : Token) : State → Option State
  | .operand stack => startOperand t stack
  | .args f stack =>
    match t with
    | .symbol .parenClose => some (.complete (.call f []) stack)
    | t => startOperand t (.call f [] :: stack)
  | .name s stack =>
    match t with
    | .symbol .parenOpen => some (.args s stack)
    | t => afterOperand t (.var s) stack
  | .complete e stack => afterOperand t e stack

/-- The expression that has been read, if it can end here. -/
def finish? : State → Option Expr
  | .complete e stack =>
    match settle e stack with
    | (e, []) => some e
    | _ => none
  | .name s stack =>
    match settle (.var s) stack with
    | (e, []) => some e
    | _ => none
  | _ => none

/-- Reads the rest of an expression. The error is the offset of the token that is
refused, or `stop` where the tokens end too early. -/
def parseFrom (stop : Nat) : State → List Located → Except Nat Expr
  | state, [] =>
    match finish? state with
    | some e => .ok e
    | none => .error stop
  | state, t :: ts =>
    match step t.token state with
    | some state => parseFrom stop state ts
    | none => .error t.start

/-- The expression of a list of tokens; `stop` is the offset where they end. -/
def ofTokens (stop : Nat) (tokens : List Located) : Except Nat Expr :=
  parseFrom stop (.operand []) tokens

/-- The expression of a text, or the byte offset of the first fault. A text that has
places where no token matches is refused there, before it is read as tokens. -/
def parse (source : List Char) : Except Nat Expr := do
  ofTokens (byteLength source) (← Token.scan source)

end Expr
end ReportQuery
