import ReportQuery.Decimal.Notation
import ReportQuery.Json.Basic
/-!
# Writing data values

The compact text of a data value, without blanks, and the indented text with one
member or item a line.
-/

namespace ReportQuery

open ReportQuery.Text

/-- The text of a number: decimal digits, or the notation of data files. -/
def JsonNumber.text : JsonNumber → List Char
  | .natural n => natDigits n.toNat
  | .negative n => intDigits n.toInt
  | .double x => Decimal.data x

namespace Json

/-- A character inside a quoted text: quotes, backslashes and control characters
are escaped, all others stand for themselves. -/
def escaped (c : Char) : List Char :=
  if c = '"' then ['\\', '"']
  else if c = '\\' then ['\\', '\\']
  else if c = '\n' then ['\\', 'n']
  else if c = '\r' then ['\\', 'r']
  else if c = '\t' then ['\\', 't']
  else if c.toNat = 0x08 then ['\\', 'b']
  else if c.toNat = 0x0C then ['\\', 'f']
  else if c.toNat < 0x20 then
    ['\\', 'u', '0', '0', hexDigit (c.toNat / 16), hexDigit (c.toNat % 16)]
  else [c]

/-- A text in quotes. -/
def quoted (s : String) : List Char := '"' :: (s.toList.flatMap escaped ++ ['"'])

mutual

/-- The compact text of a value. -/
def compact : Json → List Char
  | null => ['n', 'u', 'l', 'l']
  | bool true => ['t', 'r', 'u', 'e']
  | bool false => ['f', 'a', 'l', 's', 'e']
  | number n => n.text
  | string s => quoted s
  | array items => '[' :: (join [','] (compactItems items) ++ [']'])
  | object members => '{' :: (join [','] (compactMembers members) ++ ['}'])

/-- The compact texts of items. -/
def compactItems : List Json → List (List Char)
  | [] => []
  | item :: items => compact item :: compactItems items

/-- The compact texts of members. -/
def compactMembers : List (String × Json) → List (List Char)
  | [] => []
  | (name, value) :: members => (quoted name ++ ':' :: compact value) :: compactMembers members

end

/-- A line break and the indentation of a level. -/
def lineBreak (level : Nat) : List Char := '\n' :: List.replicate (2 * level) ' '

mutual

/-- The indented text of a value that stands at a level. -/
def indented (level : Nat) : Json → List Char
  | array [] => ['[', ']']
  | array items =>
    '[' :: (lineBreak (level + 1) ++ join (',' :: lineBreak (level + 1))
      (indentedItems (level + 1) items) ++ lineBreak level ++ [']'])
  | object [] => ['{', '}']
  | object members =>
    '{' :: (lineBreak (level + 1) ++ join (',' :: lineBreak (level + 1))
      (indentedMembers (level + 1) members) ++ lineBreak level ++ ['}'])
  | other => compact other

/-- The indented texts of items. -/
def indentedItems (level : Nat) : List Json → List (List Char)
  | [] => []
  | item :: items => indented level item :: indentedItems level items

/-- The indented texts of members. -/
def indentedMembers (level : Nat) : List (String × Json) → List (List Char)
  | [] => []
  | (name, value) :: members =>
    (quoted name ++ ':' :: ' ' :: indented level value) :: indentedMembers level members

end

end Json
end ReportQuery
