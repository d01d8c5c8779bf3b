import ReportQuery.Settings.Error
import ReportQuery.Text.Piece
/-!
# Variables in paths

A path can refer to environment variables: a dollar sign and a name, which is the longest
run of letters, numbers and underscores, or a dollar sign and any name in braces, of which
the closing one can be missing at the end of the path. A name in braces that is
empty refers to nothing, and a dollar sign stands in its place. A dollar sign without a
name stands for itself. The values are not read for variables again.
-/

namespace ReportQuery.Variable

open ReportQuery.Text

/-- The characters of names without braces. -/
def isNameChar (c : Char) : Bool := isAlphanumeric c || c = '_'

/-- The name after a dollar sign, without its braces. -/
def nameAfter : List Char → List Char
  | '{' :: rest => rest.takeWhile fun c => c ≠ '}'
  | rest => rest.takeWhile isNameChar

/-- The length of the reference at the start of a text, 0 if there is none. -/
def referenceLength : List Char → Nat
  | '$' :: '{' :: rest =>
    let name := nameAfter ('{' :: rest)
    if name.length < rest.length then name.length + 3 else name.length + 2
  | '$' :: rest => if nameAfter rest = [] then 0 else (nameAfter rest).length + 1
  | _ => 0

/-- The references to variables. -/
def references : Shape := fun _ text => referenceLength text

/-- The name in a reference. -/
def name (reference : List Char) : String := String.ofList (nameAfter (reference.drop 1))

/-- The names of the variables that a path refers to. -/
def names (path : List Char) : List String :=
  (parts references path).filterMap fun
    | .kept _ => none
    | .piece reference => if name reference = "" then none else some (name reference)

/-- Puts values in the place of references, up to the first variable that is not set. -/
def expandParts (value? : String → Option String) : List Part → Except SettingsError (List Char)
  | [] => .ok []
  | .kept c :: rest => do return c :: (← expandParts value? rest)
  | .piece reference :: rest =>
    if name reference = "" then do return '$' :: (← expandParts value? rest)
    else match value? (name reference) with
      | none => .error (.unsetVariable (name reference))
      | some value => do return value.toList ++ (← expandParts value? rest)

/-- Puts the values of variables in the place of references to them. -/
def expand (value? : String → Option String) (path : String) : Except SettingsError String :=
  (expandParts value? (parts references path.toList)).map String.ofList

end ReportQuery.Variable
