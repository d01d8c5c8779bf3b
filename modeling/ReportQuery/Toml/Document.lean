import ReportQuery.Toml.Value
/-!
# Reading settings files

A file is read line by line: a header in brackets, a name with a value, or nothing, and
then a comment. A name belongs to the table of the last header before it.
-/

namespace ReportQuery.Toml

open ReportQuery.Text

/-- What a line says. -/
inductive Statement where
  /-- The members of a table follow. -/
  | table (path : List String)
  /-- The members of one more table of an array follow. -/
  | item (path : List String)
  /-- A name has a value. -/
  | value (path : List String) (v : Toml)

/-- A file that has been read up to some line: its members, and the table that is open. -/
structure Reading where
  members : Members
  current : List String

/-- A header at the start of a text, after its brackets. -/
def header? (closing text : List Char) : Option (List String × List Char) :=
  match path? (text.length + 1) (skipSpaces text) with
  | none => none
  | some (path, rest) => (after? closing (skipSpaces rest)).map fun rest => (path, rest)

/-- The statement at the start of a text. -/
def statement? (text : List Char) : Option (Statement × List Char) :=
  match text with
  | '[' :: '[' :: rest =>
    (header? [']', ']'] rest).map fun (path, rest) => (.item path, rest)
  | '[' :: rest => (header? [']'] rest).map fun (path, rest) => (.table path, rest)
  | _ =>
    match path? (text.length + 1) text with
    | none => none
    | some (path, rest) =>
      match skipSpaces rest with
      | '=' :: rest =>
        let start := skipSpaces rest
        (value? (2 * start.length + 2) deepest start).map fun (v, rest) => (.value path v, rest)
      | _ => none

/-- The statements of a file. -/
def statements? : (fuel : Nat) → List Char → Option (List Statement)
  | 0, source => if source = [] then some [] else none
  | fuel + 1, source =>
    match skipLines? false source with
    | none => none
    | some [] => some []
    | some start => do
      let (s, rest) ← statement? start
      return s :: (← statements? fuel (← lineEnd? false rest))

/-- Takes a header: changes the table before its last name. -/
def Reading.open? (r : Reading) (path : List String) (f : String → Members → Option Members) :
    Option Reading :=
  match path.getLast? with
  | none => none
  | some name => (within? (f name) path.dropLast r.members).map fun members => ⟨members, path⟩

/-- Takes a statement. -/
def Reading.add? (r : Reading) : Statement → Option Reading
  | .table path => r.open? path openTable?
  | .item path => r.open? path openItem?
  | .value path v =>
    (within? (addValue? true path v) r.current r.members).map fun members => { r with members }

/-- Drops the mark that can stand before a file. -/
def dropMark (text : List Char) : List Char :=
  match text with
  | c :: rest => if c.toNat = 0xFEFF then rest else text
  | [] => []

/-- Reads a file. -/
def read? (text : List Char) : Option (List (String × Toml)) := do
  let source := dropMark text
  let r ← (← statements? (source.length + 1) source).foldlM Reading.add? ⟨[], []⟩
  return valuesOf r.members

end ReportQuery.Toml
