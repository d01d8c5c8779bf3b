import ReportQuery.Text.Basic
/-!
# Comments and layout

A line whose first character that is not a blank is `#` is a comment, and so is
what follows `--` on a line. Without comments, blank lines and needless blanks, a
query is one line in which words are separated by single spaces.
-/

namespace ReportQuery.Query

open ReportQuery.Text

/-- Whether a line is a comment line. -/
def isCommentLine (line : List Char) : Bool := (trimStart line).head? = some '#'

/-- What stands before the first `--` on a line. -/
def beforeComment (line : List Char) : List Char :=
  match cut? ['-', '-'] line with
  | some (before, _) => before
  | none => line

/-- Puts a single space for every run of blanks. The run that has been started is
`inRun`. -/
def collapseFrom (inRun : Bool) : List Char → List Char
  | [] => []
  | c :: cs =>
    if isBlank c then
      if inRun then collapseFrom true cs else ' ' :: collapseFrom true cs
    else c :: collapseFrom false cs

/-- Puts a single space for every run of blanks. -/
def collapse (text : List Char) : List Char := collapseFrom false text

/-- Removes comments and needless layout. -/
def stripComments (text : List Char) : List Char :=
  let kept := (lines text).filter fun line => !isCommentLine line
  let trimmed := (kept.map fun line => trim (beforeComment line)).filter fun line => line ≠ []
  collapse (join [' '] trimmed)

end ReportQuery.Query
