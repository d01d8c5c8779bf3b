import ReportQuery.Entries
import ReportQuery.Placeholder
import ReportQuery.Query.Clause
import ReportQuery.Query.Error
/-!
# The text that is sent

The text of a query as the reporting service takes it: no aliases and no
customizers in the select list, no comma before `FROM`, and a value for every
placeholder. All placeholders without a value are reported together.
-/

namespace ReportQuery.Query

open ReportQuery.Text

/-- The length of an alias with the blanks before it. -/
def aliasLength (text : List Char) : Nat :=
  if startsBlank text then
    match afterKeyword? ['a', 's'] (trimStart text) with
    | some rest =>
      if startsBlank rest && startsWord (trimStart rest) then
        text.length - ((trimStart rest).dropWhile isWord).length
      else 0
    | none => 0
  else 0

/-- The length of a customizer: an arrow and a word, `~` and a word with an optional
minus, or `:` and all that follows up to a blank or a comma. -/
def customizerLength : List Char → Nat
  | '-' :: '>' :: rest => 2 + (rest.takeWhile isWord).length
  | '~' :: '-' :: rest =>
    let word := rest.takeWhile isWord
    if word = [] then 0 else 2 + word.length
  | '~' :: rest =>
    let word := rest.takeWhile isWord
    if word = [] then 0 else 1 + word.length
  | ':' :: rest => 1 + (rest.takeWhile fun c => !isBlank c && c ≠ ',').length
  | _ => 0

/-- The length of a comma with the `FROM` that follows it and one blank. -/
def lastCommaLength : List Char → Nat
  | ',' :: rest =>
    match afterFrom? (trimStart rest) with
    | some after => rest.length - after.length + 2
    | none => 0
  | _ => 0

/-- Removes the pieces of a shape. -/
def without (length : List Char → Nat) (text : List Char) : List Char :=
  replace (fun _ t => length t) (fun _ => []) text

/-- The select list without aliases and customizers. -/
def plainList (list : List Char) : List Char :=
  without customizerLength (without aliasLength list)

/-- The query without aliases, customizers and the comma before `FROM`. -/
def cleaned (query : List Char) : List Char :=
  let text := match selectClause? query with
    | some clause => clause.head ++ plainList clause.list ++ clause.tail
    | none => query
  replace (fun _ t => lastCommaLength t) (fun _ => [' ', 'F', 'R', 'O', 'M', ' ']) text

/-- Puts the values of parameters for all placeholders of a text. -/
def fillIn (parameters : Entries String) (text : List Char) : Except QueryError (List Char) :=
  match Placeholder.unknown Placeholder.anywhere parameters.has text with
  | [] => .ok <| replace Placeholder.anywhere
      (fun p => ((parameters.find? (Placeholder.name p)).getD "").toList) text
  | names => .error (.unresolvedParameters names)

/-- The text of a query as it is sent. -/
def normalize (parameters : Entries String) (query : List Char) :
    Except QueryError (List Char) :=
  fillIn parameters (cleaned query)

end ReportQuery.Query
