import ReportQuery.Template.Segment
import ReportQuery.Text.Basic
/-!
# Reading templates

Blocks nest, and each is closed by a tag of its name. Where a tag for the body of a
block, for its end or for a comment stands alone, its line vanishes: the spaces before it
and the line break behind it are dropped. Of an included template that stands alone, the
line break is dropped, and the spaces before it become its indentation.
-/

namespace ReportQuery.Template

open ReportQuery.Text

/-- What kind of block is open. -/
inductive BlockKind where
  | helper
  | definition
  | inclusion
deriving DecidableEq

/-- One branch of a block: the tag that starts it, and its body. -/
structure Branch where
  head : Head
  names : List String
  body : List Node

/-- A block that is open. -/
structure OpenBlock where
  kind : BlockKind
  /-- The name that closes the block, unless it is computed. -/
  name : Option String
  /-- The tag that starts the branch that is read. -/
  head : Head
  names : List String
  /-- The branches before it, last first. -/
  branches : List Branch
  /-- Whether what is read is rendered where no branch is. -/
  inOtherwise : Bool
  /-- The nodes before the block, last first. -/
  outer : List Node

/-- A template that has been read up to some place. -/
structure Reading where
  /-- The nodes of the innermost open body, last first. -/
  nodes : List Node
  blocks : List OpenBlock
  /-- The last tag takes away the blanks after it. -/
  trimBlanks : Bool
  /-- The last tag stands alone, and its line break is still to be dropped. -/
  trimLine : Bool

namespace Reading

/-- Drops the indentation and the line break at the start of a text. -/
def dropLine (text : List Char) : List Char :=
  match text.dropWhile isIndent with
  | '\r' :: '\n' :: rest => rest
  | '\n' :: rest => rest
  | rest => rest

/-- Adds text. -/
def addText (r : Reading) (content : List Char) (blank : Bool) : Reading :=
  if blank && r.trimBlanks then r
  else
    let content := if r.trimBlanks then trimStart content
      else if r.trimLine then dropLine content
      else content
    { r with nodes := .text content :: r.nodes, trimLine := false }

/-- Changes the text before a tag. -/
def mapLastText (f : List Char → List Char) (r : Reading) : Reading :=
  match r.nodes with
  | .text content :: nodes => { r with nodes := .text (f content) :: nodes }
  | _ => r

/-- Drops spaces and tabs at the end of a text. -/
def dropIndent (text : List Char) : List Char := (text.reverse.dropWhile isIndent).reverse

/-- Takes away what a tag takes away before it. -/
def trimBefore (r : Reading) (t : Tag) : Reading :=
  let r := if t.trimBefore then r.mapLastText trimEnd else r
  { r with trimBlanks := t.trimAfter }

/-- Takes away the line of a tag that stands alone. -/
def trimAlone (r : Reading) (alone : Bool) : Reading :=
  let r := if alone then r.mapLastText dropIndent else r
  { r with trimLine := alone }

/-- Adds a node. -/
def addNode (r : Reading) (n : Node) : Reading := { r with nodes := n :: r.nodes }

/-- Opens a block. -/
def openBlock (r : Reading) (kind : BlockKind) (head : Head) (names : List String) : Reading :=
  { r with
    nodes := []
    blocks := ⟨kind, head.writtenName?, head, names, [], false, r.nodes⟩ :: r.blocks }

/-- Ends the branch that is read, of a block with branches that is not at its end. -/
def endBranch? (r : Reading) (next : OpenBlock → OpenBlock) : Option Reading :=
  match r.blocks with
  | b :: blocks =>
    if b.kind = .helper ∧ !b.inOtherwise then
      let branches := ⟨b.head, b.names, r.nodes.reverse⟩ :: b.branches
      some { r with nodes := [], blocks := next { b with branches := branches } :: blocks }
    else none
  | [] => none

/-- The node of a chain of branches, last first: each further branch is what is rendered
otherwise in the one before. -/
def chain (otherwise : List Node) (branches : List Branch) : List Node :=
  branches.foldl (fun inner b => [.block b.head b.names b.body inner]) otherwise

/-- The nodes of a block that is closed. -/
def closed (b : OpenBlock) (body : List Node) : List Node :=
  match b.kind with
  | .definition => [.definition b.head body]
  | .inclusion => [.inclusionBlock b.head body]
  | .helper =>
    if b.inOtherwise then chain body b.branches
    else chain [] (⟨b.head, b.names, body⟩ :: b.branches)

/-- Closes the innermost block, if it has this name. -/
def closeBlock? (r : Reading) (name : String) : Option Reading :=
  match r.blocks with
  | b :: blocks =>
    if b.name = some name then
      some { r with nodes := closed b r.nodes.reverse ++ b.outer, blocks := blocks }
    else none
  | [] => none

/-- Takes a tag. -/
def addTag? (r : Reading) (t : Tag) (alone : Bool) (indent : List Char) : Option Reading :=
  match t.kind with
  | .comment => some ((r.trimAlone alone).addNode (.text []))
  | .output head => some ((r.trimBefore t).addNode (.output head))
  | .decorator head => some (((r.trimBefore t).trimAlone alone).addNode (.decorator head))
  | .inclusion head =>
    let r := { r.trimBefore t with trimLine := alone }
    some (r.addNode (.inclusion head (if alone && !t.trimBefore then indent else [])))
  | kind =>
    let r := (r.trimBefore t).trimAlone alone
    match kind with
    | .block head names | .rawBlock head names => some (r.openBlock .helper head names)
    | .definition head => some (r.openBlock .definition head [])
    | .inclusionBlock head => some (r.openBlock .inclusion head [])
    | .otherwise => r.endBranch? fun b => { b with inOtherwise := true }
    | .otherwiseBlock head names => r.endBranch? fun b => { b with head := head, names := names }
    | .close name => r.closeBlock? name
    | _ => none

/-- Takes a segment. -/
def addSegment? (r : Reading) : Segment → Option Reading
  | .text content blank => some (r.addText content blank)
  | .tag t alone indent => r.addTag? t alone indent
  | .raw content t alone => (r.addText content false).addTag? t alone []

end Reading

/-- The nodes of a template, if it is one. -/
def parse? (template : List Char) : Option (List Node) := do
  let r ← (← segments? template).foldlM Reading.addSegment? ⟨[], [], false, false⟩
  if r.blocks.isEmpty then some r.nodes.reverse else none

end ReportQuery.Template
