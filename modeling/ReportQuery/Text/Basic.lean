import ReportQuery.Text.Class
/-!
# Texts as lists of characters

Trimming, splitting and joining. All functions here are structural on the
characters, and none loses any: `cells` and `join` are inverse to each other,
`cut?` returns what stands before and after the separator.
-/

namespace ReportQuery.Text

/-- Drops the blanks at the start. -/
def trimStart (text : List Char) : List Char := text.dropWhile isBlank

/-- Drops the blanks at the end. -/
def trimEnd (text : List Char) : List Char := (text.reverse.dropWhile isBlank).reverse

/-- Drops the blanks at both ends. -/
def trim (text : List Char) : List Char := trimEnd (trimStart text)

/-- The parts of a text between the separators: one more than there are
separators. -/
def cells (sep : Char) : List Char → List (List Char)
  | [] => [[]]
  | c :: cs =>
    if c = sep then [] :: cells sep cs
    else match cells sep cs with
      | [] => [[c]]
      | part :: parts => (c :: part) :: parts

/-- Puts a separator between the parts. -/
def join (sep : List Char) : List (List Char) → List Char
  | [] => []
  | [part] => part
  | part :: parts => part ++ sep ++ join sep parts

/-- What follows `start` at the start of a text. -/
def after? : (start : List Char) → (text : List Char) → Option (List Char)
  | [], text => some text
  | _ :: _, [] => none
  | s :: ss, c :: cs => if s = c then after? ss cs else none

/-- The texts before and after the first occurrence of a separator. -/
def cut? (sep : List Char) : List Char → Option (List Char × List Char)
  | [] => if sep = [] then some ([], []) else none
  | c :: cs =>
    match after? sep (c :: cs) with
    | some rest => some ([], rest)
    | none => (cut? sep cs).map fun (before, rest) => (c :: before, rest)

/-- The lines of a text: a line ends with a line feed, and a carriage return
before the line feed belongs to the line end. What follows the last line feed is
a line if it is not empty. -/
def lines (text : List Char) : List (List Char) :=
  let parts := cells '\n' text
  let ended := parts.dropLast.map fun line =>
    if line.getLast? = some '\r' then line.dropLast else line
  match parts.getLast? with
  | some [] | none => ended
  | some line => ended ++ [line]

/-- The number of bytes of a text in UTF-8. -/
def byteLength : List Char → Nat
  | [] => 0
  | c :: cs => c.utf8Size + byteLength cs

/-- Drops later occurrences of an entry. -/
def distinct (names : List String) : List String :=
  names.foldl (fun seen name => if name ∈ seen then seen else seen ++ [name]) []

end ReportQuery.Text
