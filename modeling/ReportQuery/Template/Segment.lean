import ReportQuery.Template.Tag
/-!
# Segments

A template is cut into text and tags. A backslash before two opening braces takes
their meaning away and is dropped; of several backslashes before them one is dropped, and
the braces open a tag. A tag stands alone if there is nothing but spaces and tabs
before it on its line, and after it up to a line break.
-/

namespace ReportQuery.Template

open ReportQuery.Text

/-- A piece of a template. -/
inductive Segment where
  /-- Text, without the backslashes that are dropped. `blank` says that the template has
  nothing but layout there. -/
  | text (content : List Char) (blank : Bool)
  /-- A tag, whether it stands alone, and the spaces and tabs before it. -/
  | tag (t : Tag) (alone : Bool) (indent : List Char)
  /-- The text of a raw block, and the tag that ends it. -/
  | raw (content : List Char) (t : Tag) (alone : Bool)

/-- Text up to a tag, and the rest. `pending` backslashes stand before the text. -/
def plainText (pending : Nat) : List Char → List Char × List Char
  | [] => (List.replicate pending '\\', [])
  | '\\' :: cs => plainText (pending + 1) cs
  | '{' :: '{' :: '{' :: '{' :: cs =>
    if pending = 1 then
      let (content, rest) := plainText 0 cs
      ('{' :: '{' :: '{' :: '{' :: content, rest)
    else (List.replicate (pending - 1) '\\', '{' :: '{' :: '{' :: '{' :: cs)
  | '{' :: '{' :: cs =>
    if pending = 1 then
      let (content, rest) := plainText 0 cs
      ('{' :: '{' :: content, rest)
    else (List.replicate (pending - 1) '\\', '{' :: '{' :: cs)
  | c :: cs =>
    let (content, rest) := plainText 0 cs
    (List.replicate pending '\\' ++ c :: content, rest)

/-- Text up to four opening braces, and the rest. -/
def rawText (pending : Nat) : List Char → List Char × List Char
  | [] => (List.replicate pending '\\', [])
  | '\\' :: cs => rawText (pending + 1) cs
  | '{' :: '{' :: '{' :: '{' :: cs =>
    if pending = 1 then
      let (content, rest) := rawText 0 cs
      ('{' :: '{' :: '{' :: '{' :: content, rest)
    else (List.replicate (pending - 1) '\\', '{' :: '{' :: '{' :: '{' :: cs)
  | '{' :: '{' :: cs =>
    let (content, rest) := rawText 0 cs
    (List.replicate (pending - 1) '\\' ++ '{' :: '{' :: content, rest)
  | c :: cs =>
    let (content, rest) := rawText 0 cs
    (List.replicate pending '\\' ++ c :: content, rest)

/-- Spaces and tabs. -/
def isIndent (c : Char) : Bool := c = ' ' || c = '\t'

/-- Characters that end a line. -/
def isLineBreak (c : Char) : Bool := c = '\n' || c = '\r'

/-- Whether a line has nothing but spaces and tabs up to here; the text before is given
from its end. -/
def isLineStart (before : List Char) : Bool :=
  match before.dropWhile isIndent with
  | [] => true
  | c :: _ => isLineBreak c

/-- Whether nothing but spaces and tabs follows up to a line break. -/
def isLineEnd (text : List Char) : Bool := (text.dropWhile isIndent).head?.any isLineBreak

/-- Whether a tag between two texts stands alone. -/
def standsAlone (before after : List Char) : Bool := isLineStart before && isLineEnd after

/-- What has been read between a text and its rest, from its end. -/
def readBetween (text rest : List Char) : List Char :=
  (text.take (text.length - rest.length)).reverse

/-- Cuts a template; what stands before the text is given from its end. -/
def segmentsFrom : (fuel : Nat) → (before text : List Char) → Option (List Segment)
  | _, _, [] => some []
  | 0, _, _ => none
  | fuel + 1, before, text =>
    let (content, rest) := plainText 0 text
    if rest.length < text.length then
      let read := readBetween text rest
      (segmentsFrom fuel (read ++ before) rest).map (.text content (read.all isLayout) :: ·)
    else match tag? text with
      | none => none
      | some (t, rest) =>
        let after := readBetween text rest ++ before
        let segment : Segment := .tag t (standsAlone before rest) (before.takeWhile isIndent).reverse
        match t.kind with
        | .rawBlock _ _ =>
          let body := skip rest
          let (content, closing) := rawText 0 body
          match rawEnd? closing with
          | none => none
          | some (stop, rest') =>
            let stopBefore := readBetween rest closing ++ after
            (segmentsFrom fuel (readBetween closing rest' ++ stopBefore) rest').map fun more =>
              segment :: .raw content stop (standsAlone stopBefore rest') :: more
        | _ => (segmentsFrom fuel after rest).map (segment :: ·)

/-- The segments of a template, or `none` where two opening braces start no tag. -/
def segments? (template : List Char) : Option (List Segment) :=
  segmentsFrom (template.length + 1) [] template

end ReportQuery.Template
