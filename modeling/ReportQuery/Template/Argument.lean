import ReportQuery.Json.Reader
import ReportQuery.Template.Syntax
import ReportQuery.Text.Basic
/-!
# Reading arguments

A name is a run of letters, digits, `_`, `-`, `$` and characters beyond ASCII. An
argument is a literal, a path, or a call in parentheses; an option is `name=argument`.
Where both readings are possible, a literal goes before a path and an option before an
argument. Between the parts, layout can stand or be left out.
-/

namespace ReportQuery.Template

open ReportQuery.Text

/-- The characters that can stand between the parts of a tag. -/
def isLayout (c : Char) : Bool := c = ' ' || c = '\t' || c = '\n' || c = '\r'

/-- Drops layout at the start. -/
def skip (text : List Char) : List Char := text.dropWhile isLayout

/-- The characters of names. -/
def isNameChar (c : Char) : Bool :=
  isAsciiLetter c || isDigit c || c = '_' || c = '-' || c = '$' || 0x80 ≤ c.toNat

/-- The name at the start of a text. -/
def name? (text : List Char) : Option (String × List Char) :=
  let name := text.takeWhile isNameChar
  if name = [] then none else some (String.ofList name, text.dropWhile isNameChar)

/-! ## Paths -/

/-- The two separators of paths. -/
def isSeparator (c : Char) : Bool := c = '/' || c = '.'

/-- One step of a path: `..`, which is `none`, or a name. Any text can stand as a name in
square brackets. -/
def step? : List Char → Option (Option String × List Char)
  | '.' :: '.' :: rest => some (none, rest)
  | '[' :: rest =>
    let raw := rest.takeWhile fun c => c ≠ ']'
    if raw.length < rest.length then some (some (String.ofList raw), rest.drop (raw.length + 1))
    else none
  | text => (name? text).map fun (name, rest) => (some name, rest)

/-- Counts the steps `..` with a separator behind them. -/
def outerSteps (count : Nat) : List Char → Nat × List Char
  | '.' :: '.' :: c :: rest =>
    if isSeparator c then outerSteps (count + 1) rest else (count, '.' :: '.' :: c :: rest)
  | text => (count, text)

/-- The further steps of a path, each behind a separator. -/
def steps : (fuel : Nat) → List Char → List (Option String) × List Char
  | 0, text => ([], text)
  | fuel + 1, text =>
    match text with
    | c :: rest =>
      match if isSeparator c then step? rest else none with
      | some (s, rest) =>
        let (more, rest) := steps fuel rest
        (s :: more, rest)
      | none => ([], text)
    | [] => ([], text)

/-- Drops `this` with its separator, or `./`. -/
def dropHere (text : List Char) : List Char :=
  match after? ['t', 'h', 'i', 's'] text with
  | some (c :: rest) => if isSeparator c then rest else text
  | _ => (after? ['.', '/'] text).getD text

/-- The path of steps. The name `this` stands for no step. -/
def Path.ofSteps (fromRoot marked : Bool) (outer : Nat) (steps : List (Option String)) : Path :=
  let steps := steps.filter fun s => s ≠ some "this"
  let outer := outer + (steps.takeWhile Option.isNone).length
  let names := steps.filterMap id
  if fromRoot then .field .root names
  else if marked then
    match names with
    | name :: _ => .loop outer name
    | [] => .field .here []
  else if outer = 0 then .field .here names
  else .field (.outer outer) names

/-- The path at the start of a text. -/
def path? (text : List Char) : Option (Argument × List Char) :=
  let rest := dropHere text
  let (fromRoot, rest) := match after? ['@', 'r', 'o', 'o', 't'] rest with
    | some (c :: inner) => if isSeparator c then (true, inner) else (false, rest)
    | _ => (false, rest)
  let (marked, rest) := match rest with
    | '@' :: inner => (true, inner)
    | _ => (false, rest)
  let (outer, rest) := outerSteps 0 rest
  match step? rest with
  | none => none
  | some (first, rest) =>
    let (more, rest) := steps rest.length rest
    let written := text.take (text.length - rest.length)
    some (.path (String.ofList written) (.ofSteps fromRoot marked outer (first :: more)), rest)

/-! ## Literals -/

/-- What follows a quoted text, after its opening quote. -/
def afterQuoted? (quote : Char) : List Char → Option (List Char)
  | [] => none
  | '\\' :: 'u' :: a :: b :: c :: d :: rest =>
    if [a, b, c, d].all fun x => (hexValue? x).isSome then afterQuoted? quote rest else none
  | '\\' :: c :: rest =>
    if c = quote ∨ c ∈ ['\\', '/', 'b', 'f', 'n', 'r', 't'] then afterQuoted? quote rest else none
  | c :: rest => if c = quote then some rest else if c = '\\' then none else afterQuoted? quote rest

/-- What follows a number: digits, an optional point with digits, an optional exponent.
No name goes on behind it. -/
def afterNumber? (text : List Char) : Option (List Char) :=
  let unsigned := match text with
    | '-' :: rest => rest
    | _ => text
  let whole := unsigned.dropWhile isDigit
  if whole.length = unsigned.length then none
  else
    let fraction := match whole with
      | '.' :: rest => rest.dropWhile isDigit
      | _ => whole
    let rest := match fraction with
      | 'E' :: exponent =>
        let digits := match exponent with
          | '-' :: digits => digits
          | _ => exponent
        let rest := digits.dropWhile isDigit
        if rest.length = digits.length then fraction else rest
      | _ => fraction
    if rest.head?.any isNameChar then none else some rest

/-- What follows one of the words that are literals. -/
def afterConstant? (text : List Char) : Option (List Char) :=
  match name? text with
  | some (name, rest) => if name ∈ ["null", "true", "false"] then some rest else none
  | none => none

mutual

/-- What follows a literal. -/
def afterLiteral? : (fuel : Nat) → List Char → Option (List Char)
  | 0, _ => none
  | fuel + 1, text =>
    match text with
    | '"' :: rest => afterQuoted? '"' rest
    | '\'' :: rest => afterQuoted? '\'' rest
    | '[' :: rest =>
      let first := skip rest
      afterItems? fuel ((afterLiteral? fuel first).getD first)
    | '{' :: rest =>
      let first := skip rest
      afterMembers? fuel ((afterMember? fuel first).getD first)
    | _ => (afterNumber? text).or (afterConstant? text)

/-- What follows the further items of an array and its bracket. -/
def afterItems? : (fuel : Nat) → List Char → Option (List Char)
  | 0, _ => none
  | fuel + 1, text =>
    match skip text with
    | ',' :: rest => (afterLiteral? fuel (skip rest)).bind fun rest => afterItems? fuel rest
    | ']' :: rest => some rest
    | _ => none

/-- What follows a member of an object. -/
def afterMember? : (fuel : Nat) → List Char → Option (List Char)
  | 0, _ => none
  | fuel + 1, text =>
    let name := match text with
      | '"' :: rest => afterQuoted? '"' rest
      | '\'' :: rest => afterQuoted? '\'' rest
      | _ => none
    match name.map skip with
    | some (':' :: rest) => afterLiteral? fuel (skip rest)
    | _ => none

/-- What follows the further members of an object and its brace. -/
def afterMembers? : (fuel : Nat) → List Char → Option (List Char)
  | 0, _ => none
  | fuel + 1, text =>
    match skip text with
    | ',' :: rest => (afterMember? fuel (skip rest)).bind fun rest => afterMembers? fuel rest
    | '}' :: rest => some rest
    | _ => none

end

/-- The text in double quotes that means the same as a text in single quotes. -/
def requoted : List Char → List Char
  | [] => []
  | '\\' :: '\'' :: rest => '\'' :: requoted rest
  | '"' :: rest => '\\' :: '"' :: requoted rest
  | c :: rest => c :: requoted rest

/-- The value of a literal. -/
def literalValue? (literal : List Char) : Option Json :=
  match literal with
  | '\'' :: rest => Json.read? ('"' :: (requoted rest.dropLast ++ ['"']))
  | _ => (Json.read? literal).map Json.canonical

/-! ## Arguments -/

/-- Whether a text starts with a word that is no argument. -/
def startsKeyword (text : List Char) : Bool :=
  match (after? ['a', 's'] text).or (after? ['e', 'l', 's', 'e'] text) with
  | some rest => !(skip rest).head?.any isNameChar
  | none => false

mutual

/-- The argument at the start of a text. -/
def argument? : (fuel : Nat) → List Char → Option (Argument × List Char)
  | 0, _ => none
  | fuel + 1, text =>
    if startsKeyword text then none
    else match afterLiteral? (text.length + 1) text with
      | some rest =>
        (literalValue? (text.take (text.length - rest.length))).map fun v => (.literal v, rest)
      | none =>
        match path? text with
        | some found => some found
        | none => subexpression? fuel text

/-- The call in parentheses at the start of a text. -/
def subexpression? : (fuel : Nat) → List Char → Option (Argument × List Char)
  | 0, _ => none
  | fuel + 1, text =>
    match text with
    | '(' :: rest =>
      match (call? fuel (skip rest)).or ((path? (skip rest)).map fun (p, rest) => (⟨p, [], []⟩, rest)) with
      | some (head, rest) =>
        match skip rest with
        | ')' :: rest => some (.call head.name head.args head.options, rest)
        | _ => none
      | none => none
    | _ => none

/-- A name with at least one argument or option. -/
def call? : (fuel : Nat) → List Char → Option (Head × List Char)
  | 0, _ => none
  | fuel + 1, text =>
    match name? text with
    | none => none
    | some (name, rest) =>
      match arguments fuel rest with
      | ([], [], _) => none
      | (args, options, rest) => some (⟨.literal (.string name), args, options⟩, rest)

/-- The arguments and options at the start of a text. -/
def arguments : (fuel : Nat) → List Char → List Argument × List (String × Argument) × List Char
  | 0, text => ([], [], text)
  | fuel + 1, text =>
    match option? fuel (skip text) with
    | some (name, value, rest) =>
      let (args, options, rest) := arguments fuel rest
      (args, if options.any (·.1 = name) then options else (name, value) :: options, rest)
    | none =>
      match argument? fuel (skip text) with
      | some (a, rest) =>
        let (args, options, rest) := arguments fuel rest
        (a :: args, options, rest)
      | none => ([], [], text)

/-- The option at the start of a text. -/
def option? : (fuel : Nat) → List Char → Option (String × Argument × List Char)
  | 0, _ => none
  | fuel + 1, text =>
    match name? text with
    | none => none
    | some (name, rest) =>
      match skip rest with
      | '=' :: rest => (argument? fuel (skip rest)).map fun (value, rest) => (name, value, rest)
      | _ => none

end

/-- More than the number of calls that reading a text can nest. -/
def enough (text : List Char) : Nat := 4 * text.length + 4

end ReportQuery.Template
