import ReportQuery.Text.Integer
import ReportQuery.Text.Class
/-!
# Log entries

What a command has to say beside its result. Names in a list are quoted: quotes, backslashes
and characters that do not show are escaped.
-/

namespace ReportQuery

open ReportQuery.Text

/-- How much an entry matters. -/
inductive LogLevel where
  /-- Of use to someone who looks for details. -/
  | detail
  /-- Of use to everyone. -/
  | warning
deriving DecidableEq

/-- A log entry. -/
structure LogEntry where
  level : LogLevel
  text : String
deriving DecidableEq

namespace LogEntry

/-- Characters that do not show by themselves: control characters, blanks but the space,
marks that combine with the character before, format characters and private ones. -/
def isHidden (c : Char) : Bool :=
  let n := c.toNat
  n < 0x20 || (0x7F ≤ n && n ≤ 0xA0) || n = 0xAD || (isBlank c && n ≠ 0x20) ||
    (0x300 ≤ n && n ≤ 0x36F) || (0x200B ≤ n && n ≤ 0x200F) || (0x202A ≤ n && n ≤ 0x202E) ||
    (0x2060 ≤ n && n ≤ 0x206F) || (0xE000 ≤ n && n ≤ 0xF8FF) || n = 0xFEFF

/-- The hexadecimal digits of a number, of which there are at most `count`. -/
def hexDigits : (count : Nat) → Nat → List Char
  | 0, _ => []
  | count + 1, n => (if n < 16 then [] else hexDigits count (n / 16)) ++ [hexDigit (n % 16)]

/-- A character inside a quoted name. -/
def escaped (c : Char) : List Char :=
  if c = '"' then ['\\', '"']
  else if c = '\\' then ['\\', '\\']
  else if c = '\n' then ['\\', 'n']
  else if c = '\r' then ['\\', 'r']
  else if c = '\t' then ['\\', 't']
  else if c.toNat = 0 then ['\\', '0']
  else if isHidden c then ['\\', 'u', '{'] ++ hexDigits 6 c.toNat ++ ['}']
  else [c]

/-- A list of names in brackets. -/
def quotedNames (names : List String) : List Char :=
  '[' :: join [',', ' '] (names.map fun name => '"' :: name.toList.flatMap escaped ++ ['"']) ++ [']']

/-- The query that is compiled has placeholders without a macro. -/
def unresolved (names : List String) : LogEntry :=
  ⟨.warning, "gaarf::compile: query references macros that were not provided unresolved=" ++
    String.ofList (quotedNames names)⟩

/-- The query that is expanded has a placeholder without a macro. -/
def notSpecified (name : String) : LogEntry :=
  ⟨.warning, s!"gaarf: macro '{name}' is used in the query but not specified"⟩

/-- A query has been compiled. -/
def compiled (columns : Nat) : LogEntry :=
  ⟨.detail, "gaarf::compile: prepared query columns=" ++ String.ofList (natDigits columns)⟩

end LogEntry
end ReportQuery
