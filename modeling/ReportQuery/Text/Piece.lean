import ReportQuery.Text.Basic
/-!
# Pieces of a text

Every replacing pass of the language looks for pieces of a certain shape from
left to right, replaces each, and goes on after it; what lies between the pieces
is kept. A shape is given by its length function: how many characters of a text,
from its start, belong to a piece, or 0 if none starts there. The character
before may matter too. `parts` cuts a text into kept characters and pieces, and
`parts_text` says that nothing is lost in the cut.
-/

namespace ReportQuery.Text

/-- A part of a text: a kept character, or a piece. -/
inductive Part where
  | kept (c : Char)
  | piece (text : List Char)
deriving DecidableEq

/-- The characters of a part. -/
def Part.text : Part → List Char
  | .kept c => [c]
  | .piece text => text

/-- How many characters from the start of a text belong to a piece, given the
character before; 0 if no piece starts there. -/
abbrev Shape := (before : Option Char) → (text : List Char) → Nat

/-- Cuts a text into kept characters and pieces. The first `skip` characters
belong to a piece that has been taken already. -/
def partsFrom (shape : Shape) : (before : Option Char) → (skip : Nat) → List Char → List Part
  | _, _, [] => []
  | _, skip + 1, c :: cs => partsFrom shape (some c) skip cs
  | before, 0, c :: cs =>
    match shape before (c :: cs) with
    | 0 => .kept c :: partsFrom shape (some c) 0 cs
    | n + 1 => .piece ((c :: cs).take (n + 1)) :: partsFrom shape (some c) n cs

/-- The kept characters and pieces of a text, from left to right. -/
def parts (shape : Shape) (text : List Char) : List Part := partsFrom shape none 0 text

/-- Puts `image` in the place of every piece. -/
def replace (shape : Shape) (image : List Char → List Char) (text : List Char) : List Char :=
  (parts shape text).flatMap fun
    | .kept c => [c]
    | .piece p => image p

theorem partsFrom_text (shape : Shape) (text : List Char) :
    ∀ before skip,
      (partsFrom shape before skip text).flatMap Part.text = text.drop skip := by
  induction text with
  | nil => intro before skip; simp [partsFrom]
  | cons c cs ih =>
    intro before skip
    cases skip with
    | succ skip => simp [partsFrom, ih]
    | zero =>
      unfold partsFrom
      split
      · simp [Part.text, ih]
      · next n _ => simp [Part.text, ih, List.take_append_drop]

/-- **Nothing is lost in the cut.** The parts of a text, put together again, are
the text. -/
theorem parts_text (shape : Shape) (text : List Char) :
    (parts shape text).flatMap Part.text = text := by
  simp [parts, partsFrom_text]

end ReportQuery.Text
