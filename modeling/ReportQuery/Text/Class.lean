import ReportQuery.Text.Category
/-!
# Character classes

The classes of characters that queries, expressions and settings are read
by: blanks, word characters, letters with digits, and the characters of
identifiers. Each class answers ASCII characters directly and looks up the
tables of `ReportQuery.Text.Category` for all others.
-/

namespace ReportQuery.Text

open Category

/-- Blank characters: the property `White_Space`. -/
def isBlank (c : Char) : Bool :=
  let n := c.toNat
  n = 0x20 || (0x09 ≤ n && n ≤ 0x0D) || n = 0x85 || n = 0xA0 || n = 0x1680 ||
    (0x2000 ≤ n && n ≤ 0x200A) || n = 0x2028 || n = 0x2029 || n = 0x202F || n = 0x205F || n = 0x3000

/-- The ten ASCII digits. -/
def isDigit (c : Char) : Bool := '0' ≤ c && c ≤ '9'

/-- The value of an ASCII digit. -/
def digitValue (c : Char) : Nat := c.toNat - '0'.toNat

/-- The value of a hexadecimal digit. -/
def hexValue? (c : Char) : Option Nat :=
  if isDigit c then some (digitValue c)
  else if 'a' ≤ c ∧ c ≤ 'f' then some (c.toNat - 'a'.toNat + 10)
  else if 'A' ≤ c ∧ c ≤ 'F' then some (c.toNat - 'A'.toNat + 10)
  else none

/-- The hexadecimal digit of a number below 16. -/
def hexDigit (n : Nat) : Char := ['0', '1', '2', '3', '4', '5', '6', '7', '8', '9',
  'a', 'b', 'c', 'd', 'e', 'f'].getD n '0'

/-- The ASCII letters. -/
def isAsciiLetter (c : Char) : Bool := ('a' ≤ c && c ≤ 'z') || ('A' ≤ c && c ≤ 'Z')

/-- Word characters: letters, marks, decimal digits, connectors and joiners. -/
def isWord (c : Char) : Bool :=
  if c.toNat < 0x80 then isAsciiLetter c || isDigit c || c = '_'
  else inRanges letters c || inRanges marks c || inRanges decimalDigits c ||
    inRanges letterNumbers c || inRanges connectors c || inRanges circledLetters c ||
    c.toNat = 0x200C || c.toNat = 0x200D

/-- Letters and numbers of any script. -/
def isAlphanumeric (c : Char) : Bool :=
  if c.toNat < 0x80 then isAsciiLetter c || isDigit c
  else inRanges letters c || inRanges decimalDigits c || inRanges letterNumbers c ||
    inRanges otherNumbers c || inRanges alphabeticMarks c || inRanges circledLetters c

/-- Characters that can follow in an identifier but lie outside the letters,
marks, digits and connectors, and letters that change under normalization. -/
def identifierExtras : List (Nat × Nat) :=
  [(0xB7, 0xB7), (0x387, 0x387), (0x1369, 0x1371), (0x19DA, 0x19DA), (0x200C, 0x200D),
   (0x30FB, 0x30FB), (0xE33, 0xE33), (0xEB3, 0xEB3), (0xFF65, 0xFF65), (0xFF9E, 0xFF9F)]

/-- Letters that cannot stand in an identifier, or not at its start, because
normalization would change the word. -/
def unstableLetters : List (Nat × Nat) :=
  [(0x37A, 0x37A), (0xE33, 0xE33), (0xEB3, 0xEB3), (0x2E2F, 0x2E2F), (0xFC5E, 0xFC63),
   (0xFDFA, 0xFDFB), (0xFE70, 0xFE70), (0xFE72, 0xFE72), (0xFE74, 0xFE74), (0xFE76, 0xFE76),
   (0xFE78, 0xFE78), (0xFE7A, 0xFE7A), (0xFE7C, 0xFE7C), (0xFE7E, 0xFE7E), (0xFF9E, 0xFF9F)]

/-- Characters that can start an identifier: the property `XID_Start`, and the
underscore. -/
def isIdentifierStart (c : Char) : Bool :=
  if c.toNat < 0x80 then isAsciiLetter c || c = '_'
  else ((inRanges letters c || inRanges letterNumbers c) && !inRanges unstableLetters c) ||
    inRanges [(0x1885, 0x1886), (0x2118, 0x2118), (0x212E, 0x212E)] c

/-- Characters that can follow in an identifier: the property `XID_Continue`. -/
def isIdentifierPart (c : Char) : Bool :=
  if c.toNat < 0x80 then isAsciiLetter c || isDigit c || c = '_'
  else isIdentifierStart c || (inRanges marks c && !inRanges enclosingMarks c) ||
    inRanges decimalDigits c || inRanges connectors c || inRanges identifierExtras c

/-! ## ASCII letters in keywords

Keywords of the query language are written in any case. Two characters beyond
ASCII have an ASCII letter as their simple case folding, and count as it. -/

/-- Whether `c` is the lower-case ASCII letter `k` in some case. -/
def foldsTo (k c : Char) : Bool :=
  c.toLower = k || (k = 's' && c.toNat = 0x17F) || (k = 'k' && c.toNat = 0x212A)

/-- What follows `keyword` at the start of a text, in any case of the letters. -/
def afterKeyword? : (keyword : List Char) → (text : List Char) → Option (List Char)
  | [], text => some text
  | _ :: _, [] => none
  | k :: ks, c :: cs => if foldsTo k c then afterKeyword? ks cs else none

end ReportQuery.Text
