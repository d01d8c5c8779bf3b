import ReportQuery.Text.Basic
/-!
# Quoted texts of settings files

There are four kinds: in double or single quotes, on one line or, with three quotes,
on several. In double quotes a backslash starts an escape; in single quotes every character
stands for itself. On several lines, a line break right after the opening quotes is
dropped, and so are a backslash at the end of a line and all blanks after it. One or two
quotes can stand right before the closing three.
-/

namespace ReportQuery.Toml

open ReportQuery.Text

/-- Control characters, other than the tab, which no text, name or comment has. -/
def isControl (c : Char) : Bool := (c.toNat < 0x20 && c ≠ '\t') || c.toNat = 0x7F

/-- Spaces and tabs. -/
def isSpace (c : Char) : Bool := c = ' ' || c = '\t'

/-- Drops spaces and tabs. -/
def skipSpaces (text : List Char) : List Char := text.dropWhile isSpace

/-- What follows a line break. -/
def afterLineBreak? : List Char → Option (List Char)
  | '\n' :: rest => some rest
  | '\r' :: '\n' :: rest => some rest
  | _ => none

/-- The character of hexadecimal digits, unless it is half of a surrogate pair or beyond
the range of characters. -/
def hexChar? (digits : List Char) : Option Char := do
  let values ← digits.mapM hexValue?
  let n := values.foldl (fun n v => 16 * n + v) 0
  if h : n.isValidChar then some (Char.ofNatAux n h) else none

/-- The character of an escape of one letter. -/
def escapeChar? (c : Char) : Option Char :=
  match c with
  | 'b' => some (Char.ofNat 0x08)
  | 't' => some '\t'
  | 'n' => some '\n'
  | 'f' => some (Char.ofNat 0x0C)
  | 'r' => some '\r'
  | '"' => some '"'
  | '\\' => some '\\'
  | _ => none

/-- Adds a character in front of what is read. -/
def withFront (c : Option Char) (read : Option (List Char × List Char)) :
    Option (List Char × List Char) := do
  let (content, rest) ← read
  return ((← c) :: content, rest)

/-- A text in double quotes, after its opening quote. -/
def basic? : List Char → Option (List Char × List Char)
  | [] => none
  | '"' :: rest => some ([], rest)
  | '\\' :: 'u' :: a :: b :: c :: d :: rest => withFront (hexChar? [a, b, c, d]) (basic? rest)
  | '\\' :: 'U' :: a :: b :: c :: d :: e :: f :: g :: h :: rest =>
    withFront (hexChar? [a, b, c, d, e, f, g, h]) (basic? rest)
  | '\\' :: c :: rest => withFront (escapeChar? c) (basic? rest)
  | c :: rest => if isControl c then none else withFront (some c) (basic? rest)

/-- A text in single quotes, after its opening quote. -/
def literal? : List Char → Option (List Char × List Char)
  | [] => none
  | c :: rest =>
    if c = '\'' then some ([], rest)
    else if isControl c then none
    else withFront (some c) (literal? rest)

/-- The closing quotes of a text on several lines, with the quotes right before them. -/
def closing? (quote : Char) (text : List Char) : Option (List Char × List Char) :=
  let quotes := text.takeWhile fun c => c = quote
  if 3 ≤ quotes.length then
    let inside := min 2 (quotes.length - 3)
    some (List.replicate inside quote, text.drop (inside + 3))
  else none

/-- A text in three double quotes, after them. `skipping` says that the blanks after a
backslash at the end of a line are dropped. -/
def basicLines? (skipping : Bool) : List Char → Option (List Char × List Char)
  | [] => none
  | '\\' :: 'u' :: a :: b :: c :: d :: rest =>
    withFront (hexChar? [a, b, c, d]) (basicLines? false rest)
  | '\\' :: 'U' :: a :: b :: c :: d :: e :: f :: g :: h :: rest =>
    withFront (hexChar? [a, b, c, d, e, f, g, h]) (basicLines? false rest)
  | '\\' :: c :: rest =>
    if (afterLineBreak? (skipSpaces (c :: rest))).isSome then basicLines? true (c :: rest)
    else withFront (escapeChar? c) (basicLines? false rest)
  | c :: rest =>
    if c = '\n' ∨ (c = '\r' ∧ rest.head? = some '\n') then
      if skipping then basicLines? true rest else withFront (some c) (basicLines? false rest)
    else if skipping && isSpace c then basicLines? true rest
    else if isControl c then none
    else match if c = '"' then closing? '"' (c :: rest) else none with
      | some found => some found
      | none => withFront (some c) (basicLines? false rest)

/-- A text in three single quotes, after them. -/
def literalLines? : List Char → Option (List Char × List Char)
  | [] => none
  | c :: rest =>
    if isControl c ∧ c ≠ '\n' ∧ ¬(c = '\r' ∧ rest.head? = some '\n') then none
    else match if c = '\'' then closing? '\'' (c :: rest) else none with
      | some found => some found
      | none => withFront (some c) (literalLines? rest)

/-- Drops a line break at the start. -/
def dropLineBreak (text : List Char) : List Char := (afterLineBreak? text).getD text

/-- A quoted text of one line, at the start of a text. -/
def line? : List Char → Option (List Char × List Char)
  | '"' :: rest => basic? rest
  | '\'' :: rest => literal? rest
  | _ => none

/-- A quoted text of any kind, at the start of a text. -/
def quoted? : List Char → Option (List Char × List Char)
  | '"' :: '"' :: '"' :: rest => basicLines? false (dropLineBreak rest)
  | '\'' :: '\'' :: '\'' :: rest => literalLines? (dropLineBreak rest)
  | source => line? source

end ReportQuery.Toml
