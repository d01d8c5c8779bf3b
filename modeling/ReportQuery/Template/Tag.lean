import ReportQuery.Template.Argument
/-!
# Reading tags

A tag stands in two braces, or in three or four. The sign after the opening braces says
what it does; without one, it writes a value. A `~` after the opening or before the
closing braces takes away the blanks on that side.
-/

namespace ReportQuery.Template

open ReportQuery.Text

/-- What a tag does. -/
inductive TagKind where
  | output (head : Head)
  | comment
  | block (head : Head) (names : List String)
  /-- A block whose body is text up to the next four braces. -/
  | rawBlock (head : Head) (names : List String)
  | definition (head : Head)
  | inclusionBlock (head : Head)
  /-- The body ends, and what is rendered otherwise begins. -/
  | otherwise
  /-- What is rendered otherwise is a block of its own, up to the end of the first. -/
  | otherwiseBlock (head : Head) (names : List String)
  | close (name : String)
  | inclusion (head : Head)
  | decorator (head : Head)

/-- A tag, and whether it takes away the blanks before and after it. -/
structure Tag where
  kind : TagKind
  trimBefore : Bool
  trimAfter : Bool

/-- An optional `~`. -/
def mark (text : List Char) : Bool × List Char :=
  match skip text with
  | '~' :: rest => (true, skip rest)
  | rest => (false, rest)

/-- A value, a call in parentheses, or a name with arguments. -/
def expression? (text : List Char) : Option (Head × List Char) :=
  (call? (enough text) text).or
    (((subexpression? (enough text) text).or (path? text)).map fun (a, rest) =>
      (⟨a, [], []⟩, rest))

/-- The names that a block gives to values: `as |name name|`. -/
def blockNames? (text : List Char) : Option (List String × List Char) :=
  match (after? ['a', 's'] (skip text)).map skip with
  | some ('|' :: rest) =>
    match name? (skip rest) with
    | none => none
    | some (first, rest) =>
      match skip rest with
      | '|' :: rest => some ([first], rest)
      | rest =>
        match name? rest with
        | none => none
        | some (second, rest) =>
          match skip rest with
          | '|' :: rest => some ([first, second], rest)
          | _ => none
  | _ => none

/-- A name with any number of arguments, and the names of a block. -/
def blockHead? (text : List Char) : Option (Head × List String × List Char) :=
  match name? text with
  | none => none
  | some (name, rest) =>
    let (args, options, rest) := arguments (enough rest) rest
    let (names, rest) := (blockNames? rest).getD ([], rest)
    some (⟨.literal (.string name), args, options⟩, names, rest)

/-- The characters of the name of an included template. -/
def isTemplateNameChar (c : Char) : Bool :=
  isAsciiLetter c || isDigit c || c = '_' || c = '-' || c = '/' || c = '.' || 0x80 ≤ c.toNat

/-- The name of a template: a run of its characters, or a text in single quotes. -/
def templateName? (text : List Char) : Option (String × List Char) :=
  match text.takeWhile isTemplateNameChar with
  | [] =>
    match text with
    | '\'' :: rest =>
      let name := rest.takeWhile fun c => c ≠ '\''
      if name ≠ [] ∧ name.length < rest.length then
        some (String.ofList name, rest.drop (name.length + 1))
      else none
    | _ => none
  | name => some (String.ofList name, text.dropWhile isTemplateNameChar)

/-- The name, arguments and options of an inclusion. -/
def inclusionHead? (text : List Char) : Option (Head × List Char) :=
  let name := match templateName? text with
    | some (name, rest) => some (Argument.literal (.string name), rest)
    | none => (subexpression? (enough text) text).or (path? text)
  name.map fun (name, rest) =>
    let (args, options, rest) := arguments (enough rest) rest
    (⟨name, args, options⟩, rest)

/-- The name in a closing tag. -/
def closingName? (text : List Char) : Option (String × List Char) :=
  match text.takeWhile fun c => isNameChar c || isTemplateNameChar c with
  | [] => templateName? text
  | name => some (String.ofList name, text.dropWhile fun c => isNameChar c || isTemplateNameChar c)

/-- Ends a tag: an optional `~` and the closing braces. -/
def finish? (braces : List Char) (trimBefore : Bool) (kind : TagKind) (text : List Char) :
    Option (Tag × List Char) :=
  let (trimAfter, rest) := mark text
  (after? braces rest).map fun rest => (⟨kind, trimBefore, trimAfter⟩, rest)

/-- Two closing braces. -/
def closing : List Char := ['}', '}']

/-- A comment, after its exclamation mark: to the next two closing braces, or in dashes
to the next dashes with braces. -/
def comment? (text : List Char) : Option (Tag × List Char) :=
  let dashed := (after? ['-', '-'] (skip text)).bind fun inner => cut? ['-', '-', '}', '}'] inner
  (dashed.or (cut? closing text)).map fun (_, rest) => (⟨.comment, false, false⟩, rest)

/-- The `else` tag, with or without a block. -/
def otherwise? (trimBefore : Bool) (text : List Char) : Option (Tag × List Char) :=
  (finish? closing trimBefore .otherwise text).or
    ((blockHead? (skip text)).bind fun (head, names, rest) =>
      finish? closing trimBefore (.otherwiseBlock head names) rest)

/-- What follows the word of an `else` tag. -/
def afterElse? (text : List Char) : Option (List Char) :=
  match text with
  | '^' :: rest => some rest
  | _ =>
    (after? ['e', 'l', 's', 'e'] text).filter fun rest => !rest.head?.any isNameChar

/-- A tag in three braces, after the third. -/
def triple? (trimBefore : Bool) (text : List Char) : Option (Tag × List Char) :=
  let (innerBefore, rest) := mark text
  match expression? rest with
  | none => none
  | some (head, rest) =>
    let (innerAfter, rest) := mark rest
    match rest with
    | '}' :: rest =>
      (finish? closing (trimBefore || innerBefore) (.output head) rest).map fun (tag, rest) =>
        (⟨tag.kind, tag.trimBefore, tag.trimAfter || innerAfter⟩, rest)
    | _ => none

/-- A tag that opens a block, after its sign. -/
def opening? (trimBefore : Bool) (text : List Char) : Option (Tag × List Char) :=
  match text with
  | '>' :: rest =>
    (inclusionHead? (skip rest)).bind fun (head, rest) =>
      finish? closing trimBefore (.inclusionBlock head) rest
  | '*' :: rest =>
    (blockHead? (skip rest)).bind fun (head, _, rest) =>
      finish? closing trimBefore (.definition head) rest
  | _ =>
    (blockHead? text).bind fun (head, names, rest) =>
      finish? closing trimBefore (.block head names) rest

/-- The tag that follows two opening braces and an optional `~`. -/
def inner? (trimBefore : Bool) (text : List Char) : Option (Tag × List Char) :=
  match text with
  | '{' :: rest => triple? trimBefore rest
  | '#' :: rest => opening? trimBefore (skip rest)
  | '/' :: rest =>
    (closingName? (skip rest)).bind fun (name, rest) =>
      finish? closing trimBefore (.close name) rest
  | '>' :: rest =>
    (inclusionHead? (skip rest)).bind fun (head, rest) =>
      finish? closing trimBefore (.inclusion head) rest
  | '*' :: rest =>
    (blockHead? (skip rest)).bind fun (head, _, rest) =>
      finish? closing trimBefore (.decorator head) rest
  | '&' :: rest =>
    let rest := skip rest
    ((subexpression? (enough rest) rest).or (path? rest)).bind fun (a, rest) =>
      finish? closing trimBefore (.output ⟨a, [], []⟩) rest
  | _ =>
    match afterElse? text with
    | some rest => otherwise? trimBefore rest
    | none =>
      (expression? text).bind fun (head, rest) => finish? closing trimBefore (.output head) rest

/-- Four closing braces. -/
def rawClosing : List Char := ['}', '}', '}', '}']

/-- The tag at the start of a text that starts with two opening braces. -/
def tag? (text : List Char) : Option (Tag × List Char) :=
  match text with
  | '{' :: '{' :: '{' :: '{' :: rest =>
    let (trimBefore, rest) := mark rest
    (blockHead? rest).bind fun (head, names, rest) =>
      finish? rawClosing trimBefore (.rawBlock head names) rest
  | '{' :: '{' :: '!' :: rest => comment? rest
  | '{' :: '{' :: rest =>
    let (trimBefore, rest) := mark rest
    inner? trimBefore rest
  | _ => none

/-- The tag that ends a raw block, at the start of a text. -/
def rawEnd? (text : List Char) : Option (Tag × List Char) :=
  match text with
  | '{' :: '{' :: '{' :: '{' :: rest =>
    match mark rest with
    | (trimBefore, '/' :: rest) =>
      (name? (skip rest)).bind fun (name, rest) =>
        finish? rawClosing trimBefore (.close name) rest
    | _ => none
  | _ => none

end ReportQuery.Template
