import ReportQuery.Text.Basic
/-!
# The clauses of a query

The select list stands between `SELECT`, the first word of the query, and the first
`FROM` that stands between blanks. The resource is the word after a `FROM` that
follows a blank. Keywords are written in any case.
-/

namespace ReportQuery.Query

open ReportQuery.Text

/-- Whether a text starts with a blank. -/
def startsBlank : List Char → Bool
  | c :: _ => isBlank c
  | [] => false

/-- Whether a text starts with a word character. -/
def startsWord : List Char → Bool
  | c :: _ => isWord c
  | [] => false

/-- What follows `FROM` at the start of a text; a blank follows it. -/
def afterFrom? (text : List Char) : Option (List Char) :=
  (afterKeyword? ['f', 'r', 'o', 'm'] text).filter startsBlank

/-- The texts before and after the blank in front of the first `FROM`. The second
starts with that blank. -/
def untilFrom? : List Char → Option (List Char × List Char)
  | [] => none
  | c :: cs =>
    if isBlank c && (afterFrom? cs).isSome then some ([], c :: cs)
    else (untilFrom? cs).map fun (before, rest) => (c :: before, rest)

/-- A query cut at its select list. -/
structure SelectClause where
  /-- Up to and with `SELECT`. -/
  head : List Char
  /-- The select list. -/
  list : List Char
  /-- From the blank before `FROM`. -/
  tail : List Char
deriving DecidableEq

/-- Finds the select list of a query. -/
def selectClause? (query : List Char) : Option SelectClause :=
  match afterKeyword? ['s', 'e', 'l', 'e', 'c', 't'] (trimStart query) with
  | none => none
  | some rest =>
    if startsWord rest then none
    else (untilFrom? rest).map fun (list, tail) =>
      ⟨query.take (query.length - rest.length), list, tail⟩

/-- Characters of a resource word. -/
def isResourceChar (c : Char) : Bool := !isBlank c && c ≠ ',' && c ≠ ';'

/-- The word after `FROM` and blanks, if a text starts with a blank and `FROM`. -/
def resourceAt? : List Char → Option (List Char)
  | [] => none
  | c :: cs =>
    if isBlank c then
      match afterFrom? cs with
      | none => none
      | some rest =>
        let word := (trimStart rest).takeWhile isResourceChar
        if word = [] then none else some word
    else none

/-- The resource of a query. -/
def resourceWord? : List Char → Option (List Char)
  | [] => none
  | c :: cs => (resourceAt? (c :: cs)).or (resourceWord? cs)

/-- Cuts a select list at the commas that stand outside parentheses. `depth` counts
the parentheses that are open. -/
def itemsFrom (depth : Nat) : List Char → List (List Char)
  | [] => [[]]
  | c :: cs =>
    if c = ',' ∧ depth = 0 then [] :: itemsFrom 0 cs
    else
      let depth := if c = '(' then depth + 1 else if c = ')' then depth - 1 else depth
      match itemsFrom depth cs with
      | [] => [[c]]
      | item :: items => (c :: item) :: items

/-- The items of a select list. An item without any character is left out; an item
of blanks is not. -/
def items (list : List Char) : List (List Char) :=
  (itemsFrom 0 list).filter fun item => item ≠ []

end ReportQuery.Query
