import ReportQuery.Decimal.Notation
import ReportQuery.Decimal.Reader
/-!
# Tokens

An expression is read as numbers, quoted texts, names, keywords and symbols, with
blanks between them where they are wanted. At each place the longest token is taken.
A token carries the bytes of the source that it covers.
-/

namespace ReportQuery

open ReportQuery.Text

/-- The symbols that are no words. -/
inductive Symbol where
  | plus
  | minus
  | star
  | slash
  | percent
  | caret
  | parenOpen
  | parenClose
  | comma
  | question
  | colon
  | equal
  | notEqual
  | less
  | lessEqual
  | greater
  | greaterEqual
deriving DecidableEq

/-- The text of a symbol. -/
def Symbol.text : Symbol → String
  | plus => "+"
  | minus => "-"
  | star => "*"
  | slash => "/"
  | percent => "%"
  | caret => "^"
  | parenOpen => "("
  | parenClose => ")"
  | comma => ","
  | question => "?"
  | colon => ":"
  | equal => "=="
  | notEqual => "!="
  | less => "<"
  | lessEqual => "<="
  | greater => ">"
  | greaterEqual => ">="

/-- A token. The keywords `and`, `or` and `not` have a second spelling of symbols. -/
inductive Token where
  | number (x : Float)
  /-- A quoted text, without its quotes. -/
  | text (s : String)
  | name (s : String)
  | bool (b : Bool)
  | and
  | or
  | not
  | symbol (s : Symbol)

/-- A token, with the byte offsets where it starts and where it ends. -/
structure Located where
  token : Token
  start : Nat
  stop : Nat

namespace Token

/-- The text that names a token. -/
def display : Token → List Char
  | number x => Decimal.plain x
  | text s => '\'' :: (s.toList ++ ['\''])
  | name s => s.toList
  | bool true => "true".toList
  | bool false => "false".toList
  | and => "and".toList
  | or => "or".toList
  | not => "not".toList
  | symbol s => s.text.toList

/-! ## The token at the start of a text -/

/-- The length of a point with one or more digits. -/
def fractionLength : List Char → Nat
  | '.' :: rest =>
    let digits := (rest.takeWhile isDigit).length
    if digits = 0 then 0 else digits + 1
  | _ => 0

/-- The length of an exponent: a mark, an optional sign, one or more digits. -/
def exponentLength : List Char → Nat
  | mark :: rest =>
    if mark = 'e' ∨ mark = 'E' then
      let sign := match rest with
        | '+' :: _ | '-' :: _ => 1
        | _ => 0
      let digits := ((rest.drop sign).takeWhile isDigit).length
      if digits = 0 then 0 else 1 + sign + digits
    else 0
  | [] => 0

/-- The length of a number: digits with an optional fraction, or a fraction alone,
with an optional exponent. -/
def numberLength (text : List Char) : Nat :=
  let whole := (text.takeWhile isDigit).length
  let mantissa := whole + fractionLength (text.drop whole)
  if mantissa = 0 then 0 else mantissa + exponentLength (text.drop mantissa)

/-- The token of a word. -/
def ofWord (word : List Char) : Token :=
  match String.ofList word with
  | "true" => bool true
  | "false" => bool false
  | "and" => and
  | "or" => or
  | "not" => not
  | s => name s

/-- A quoted text, after its opening quote. -/
def quoted? (quote : Char) (rest : List Char) : Option (Token × Nat) :=
  let body := rest.takeWhile fun c => c ≠ quote
  if body.length < rest.length then some (text (String.ofList body), body.length + 2) else none

/-- A symbol, or a keyword in the spelling of symbols. -/
def symbol? : List Char → Option (Token × Nat)
  | '=' :: '=' :: _ => some (symbol .equal, 2)
  | '!' :: '=' :: _ => some (symbol .notEqual, 2)
  | '<' :: '=' :: _ => some (symbol .lessEqual, 2)
  | '>' :: '=' :: _ => some (symbol .greaterEqual, 2)
  | '&' :: '&' :: _ => some (and, 2)
  | '|' :: '|' :: _ => some (or, 2)
  | '<' :: _ => some (symbol .less, 1)
  | '>' :: _ => some (symbol .greater, 1)
  | '!' :: _ => some (not, 1)
  | '+' :: _ => some (symbol .plus, 1)
  | '-' :: _ => some (symbol .minus, 1)
  | '*' :: _ => some (symbol .star, 1)
  | '/' :: _ => some (symbol .slash, 1)
  | '%' :: _ => some (symbol .percent, 1)
  | '^' :: _ => some (symbol .caret, 1)
  | '(' :: _ => some (symbol .parenOpen, 1)
  | ')' :: _ => some (symbol .parenClose, 1)
  | ',' :: _ => some (symbol .comma, 1)
  | '?' :: _ => some (symbol .question, 1)
  | ':' :: _ => some (symbol .colon, 1)
  | _ => none

/-- The token at the start of a text, with its length in characters. -/
def first? (source : List Char) : Option (Token × Nat) :=
  let digits := numberLength source
  if digits ≠ 0 then
    some (number ((Decimal.readFloat? (source.take digits)).getD 0), digits)
  else match source with
    | [] => none
    | c :: rest =>
      if c = '\'' ∨ c = '"' then quoted? c rest
      else if isIdentifierStart c then
        let word := c :: rest.takeWhile isIdentifierPart
        some (ofWord word, word.length)
      else symbol? source

/-! ## All tokens of a text -/

/-- Reads tokens from the byte offset `offset`; the first `skip` characters belong to
a token that has been taken already. Where no token matches, the offset of that place
is returned; after half of a symbol of two characters, the place of the other half. -/
def scanFrom : (skip offset : Nat) → List Char → Except Nat (List Located)
  | _, _, [] => .ok []
  | skip + 1, offset, c :: cs => scanFrom skip (offset + c.utf8Size) cs
  | 0, offset, c :: cs =>
    if isBlank c then scanFrom 0 (offset + c.utf8Size) cs
    else match first? (c :: cs) with
      | some (token, length + 1) => do
        let stop := offset + byteLength ((c :: cs).take (length + 1))
        return ⟨token, offset, stop⟩ :: (← scanFrom length (offset + c.utf8Size) cs)
      | _ => .error (if c = '=' ∨ c = '&' ∨ c = '|' then offset + 1 else offset)

/-- The tokens of a text, or the byte offset where none matches. -/
def scan (source : List Char) : Except Nat (List Located) := scanFrom 0 0 source

end Token
end ReportQuery
