import ReportQuery.Text.Piece
/-!
# Placeholders

A placeholder is a name in braces. It starts at an opening brace and reaches to
the next closing brace; the name has at least one character, and any character
but a closing brace can stand in it.
-/

namespace ReportQuery.Placeholder

open ReportQuery.Text

/-- The length of the placeholder at the start of a text, 0 if there is none. -/
def length : List Char → Nat
  | '{' :: rest =>
    let name := rest.takeWhile fun c => c ≠ '}'
    if name ≠ [] ∧ name.length < rest.length then name.length + 2 else 0
  | _ => 0

/-- Placeholders, wherever they stand. -/
def anywhere : Shape := fun _ text => length text

/-- Placeholders whose brace does not follow a dollar sign directly. -/
def unmarked : Shape := fun before text => if before = some '$' then 0 else length text

/-- The name in a placeholder. -/
def name (placeholder : List Char) : String := String.ofList (placeholder.drop 1).dropLast

/-- The names of the placeholders of a text that have no value, each once, in order
of first occurrence. -/
def unknown (shape : Shape) (known : String → Bool) (text : List Char) : List String :=
  distinct <| (parts shape text).filterMap fun
    | .kept _ => none
    | .piece p => if known (name p) then none else some (name p)

end ReportQuery.Placeholder
