import ReportQuery.Json.Basic
/-!
# Templates

A template is text with tags in double braces. Read, it is a list of nodes: text,
places where a value is written, blocks with a body, and templates that are defined
in place and included by name.
-/

namespace ReportQuery.Template

/-- Where the names of a path start. -/
inductive Origin where
  /-- At the current context. -/
  | here
  /-- At the context of the block that lies this many blocks further out. -/
  | outer (blocks : Nat)
  /-- At the parameters of the template. -/
  | root
deriving DecidableEq

/-- A path to a value. -/
inductive Path where
  /-- A variable of the loop that lies this many blocks further out. -/
  | loop (blocks : Nat) (name : String)
  /-- What the names lead to, one after the other. -/
  | field (origin : Origin) (names : List String)
deriving DecidableEq

/-- What stands in a tag: a literal value, a path with its text, or a call. The name
of a call is an argument too, because a call can compute it. -/
inductive Argument where
  | literal (value : Json)
  | path (text : String) (path : Path)
  | call (name : Argument) (args : List Argument) (options : List (String × Argument))

/-- The name, arguments and options of a tag. -/
structure Head where
  name : Argument
  args : List Argument
  options : List (String × Argument)

/-- The name of a tag, unless it is computed. -/
def Head.writtenName? (head : Head) : Option String :=
  match head.name with
  | .literal (.string name) => some name
  | .path text _ => some text
  | _ => none

/-- A part of a template. -/
inductive Node where
  | text (content : List Char)
  /-- A value, or what a helper yields. -/
  | output (head : Head)
  /-- A helper with a body, and what is rendered in its place otherwise. The names are
  those that the helper gives to values in its body. -/
  | block (head : Head) (names : List String) (body otherwise : List Node)
  /-- A decorator without a body. -/
  | decorator (head : Head)
  /-- A template that is defined in place. -/
  | definition (head : Head) (body : List Node)
  /-- An included template; its lines but the first are indented. -/
  | inclusion (head : Head) (indent : List Char)
  /-- An included template, or the body if there is none of that name. -/
  | inclusionBlock (head : Head) (body : List Node)

end ReportQuery.Template
