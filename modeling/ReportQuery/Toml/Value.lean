import ReportQuery.Toml.Moment
import ReportQuery.Toml.Number
import ReportQuery.Toml.Quoted
import ReportQuery.Toml.Section
/-!
# Reading values of settings files

Between the items of an array, line breaks and comments can stand, and a comma can
follow the last item. A table in braces stands on one line, and no comma follows its last
member. Arrays and tables nest at most 80 deep.
-/

namespace ReportQuery.Toml

open ReportQuery.Text

/-! ## Names -/

/-- The characters of names without quotes. -/
def isNameChar (c : Char) : Bool := isAsciiLetter c || isDigit c || c = '_' || c = '-'

/-- A name at the start of a text. -/
def name? (text : List Char) : Option (String × List Char) :=
  match line? text with
  | some (content, rest) => some (String.ofList content, rest)
  | none =>
    let name := text.takeWhile isNameChar
    if name = [] then none else some (String.ofList name, text.dropWhile isNameChar)

/-- A dotted name at the start of a text. -/
def path? : (fuel : Nat) → List Char → Option (List String × List Char)
  | 0, _ => none
  | fuel + 1, source =>
    match name? source with
    | none => none
    | some (name, rest) =>
      match skipSpaces rest with
      | '.' :: more => (path? fuel (skipSpaces more)).map fun (path, rest) => (name :: path, rest)
      | _ => some ([name], rest)

/-! ## Layout -/

/-- Drops blanks, line breaks and comments. -/
def skipLines? (inComment : Bool) : List Char → Option (List Char)
  | [] => some []
  | c :: rest =>
    if c = '\n' then skipLines? false rest
    else if c = '\r' then (if rest.head? = some '\n' then skipLines? inComment rest else none)
    else if inComment then (if isControl c then none else skipLines? true rest)
    else if isSpace c then skipLines? false rest
    else if c = '#' then skipLines? true rest
    else some (c :: rest)

/-- Drops blanks and a comment up to the end of a line. -/
def lineEnd? (inComment : Bool) : List Char → Option (List Char)
  | [] => some []
  | c :: rest =>
    if c = '\n' then some rest
    else if c = '\r' then (if rest.head? = some '\n' then some (rest.drop 1) else none)
    else if inComment then (if isControl c then none else lineEnd? true rest)
    else if isSpace c then lineEnd? false rest
    else if c = '#' then lineEnd? true rest
    else none

/-! ## Values -/

mutual

/-- A value at the start of a text; `depth` values can nest in it. -/
def value? : (fuel depth : Nat) → List Char → Option (Toml × List Char)
  | 0, _, _ => none
  | _, 0, _ => none
  | fuel + 1, depth + 1, source =>
    match source with
    | '[' :: rest => (items? fuel depth rest).map fun (items, rest) => (.array items, rest)
    | '{' :: rest =>
      match skipSpaces rest with
      | '}' :: rest => some (.table [], rest)
      | rest =>
        (members? fuel depth [] rest).map fun (members, rest) => (.table (valuesOf members), rest)
    | '"' :: _ | '\'' :: _ =>
      (quoted? source).map fun (content, rest) => (.text (String.ofList content), rest)
    | _ =>
      if startsDate source || startsTime source then
        (moment? source).map fun (content, rest) => (.moment (String.ofList content), rest)
      else (word? (source.takeWhile isWordChar)).map fun v => (v, source.dropWhile isWordChar)

/-- The items of an array and its closing bracket. -/
def items? : (fuel depth : Nat) → List Char → Option (List Toml × List Char)
  | 0, _, _ => none
  | fuel + 1, depth, source =>
    match skipLines? false source with
    | none => none
    | some (']' :: rest) => some ([], rest)
    | some start =>
      match value? fuel depth start with
      | none => none
      | some (v, rest) =>
        match skipLines? false rest with
        | some (',' :: rest) => (items? fuel depth rest).map fun (vs, rest) => (v :: vs, rest)
        | some (']' :: rest) => some ([v], rest)
        | _ => none

/-- The members of a table in braces and its closing brace, after those that have been
read. -/
def members? : (fuel depth : Nat) → Members → List Char → Option (Members × List Char)
  | 0, _, _, _ => none
  | fuel + 1, depth, before, source =>
    match path? (source.length + 1) (skipSpaces source) with
    | none => none
    | some (path, rest) =>
      match skipSpaces rest with
      | '=' :: rest =>
        match value? fuel depth (skipSpaces rest) with
        | none => none
        | some (v, rest) =>
          match addValue? true path v before with
          | none => none
          | some members =>
            match skipSpaces rest with
            | ',' :: rest => members? fuel depth members rest
            | '}' :: rest => some (members, rest)
            | _ => none
      | _ => none

end

/-- How deep values nest. -/
def deepest : Nat := 80

end ReportQuery.Toml
