import ReportQuery.Template.Helper
import ReportQuery.Template.Parameters
import ReportQuery.Template.Parse
import ReportQuery.Template.Scope
/-!
# Rendering templates

Nodes are rendered one after the other. A definition is known to all that follows
it, also outside the block where it stands. An included template is rendered by the renderer
of the next depth, so that rendering is structural on the nodes, and templates that include
each other without end are an error.
-/

namespace ReportQuery.Template

open ReportQuery.Text

/-! ## Arguments -/

mutual

/-- The value of an argument. -/
def evalArgument (s : Scope) : Argument → Except RenderError Json
  | .literal v => .ok v
  | .path _ p => s.value p
  | .call name args options => do
    let name ← (match name with
      | .path text _ => .ok text
      | other => (evalArgument s other).map fun v => String.ofList (shown v))
    helperValue name (← evalArguments s args) (← evalOptions s options)

/-- The values of arguments. -/
def evalArguments (s : Scope) : List Argument → Except RenderError (List Json)
  | [] => .ok []
  | a :: as => do
    let v ← evalArgument s a
    return v :: (← evalArguments s as)

/-- The values of options. -/
def evalOptions (s : Scope) : List (String × Argument) → Except RenderError (Entries Json)
  | [] => .ok []
  | (name, a) :: rest => do
    let v ← evalArgument s a
    return (name, v) :: (← evalOptions s rest)

end

/-- A tag with the values of its parts. -/
structure Call where
  name : String
  args : List Json
  options : Entries Json

/-- The text of a name. -/
def evalName (s : Scope) : Argument → Except RenderError String
  | .path text _ => .ok text
  | other => (evalArgument s other).map fun v => String.ofList (shown v)

/-- Evaluates a tag. -/
def Head.eval (s : Scope) (head : Head) : Except RenderError Call := do
  return ⟨← evalName s head.name, ← evalArguments s head.args, ← evalOptions s head.options⟩

/-- The value that a tag writes: of a helper, or of a path or call without arguments that is
not the name of a helper. -/
def Head.output (s : Scope) (head : Head) : Except RenderError Json := do
  let call ← head.eval s
  if call.args.isEmpty ∧ call.options.isEmpty ∧ call.name ∉ helperNames then
    evalArgument s head.name
  else helperValue call.name call.args call.options

/-! ## Blocks -/

/-- The names that a block gives to an item and its key or index. -/
def given (names : List String) (item : Json) (key : Json) : Entries Json :=
  match names with
  | [name] => [(name, item)]
  | name :: keyName :: _ => [(keyName, key), (name, item)]
  | [] => []

/-- A natural number as a data value. -/
def natural (n : Nat) : Json := .number (.natural n.toUInt64)

/-- The variables of a loop at an item. -/
def position (index count : Nat) : Entries Json :=
  [("first", .bool (index = 0)), ("last", .bool (index + 1 = count)), ("index", natural index)]

/-- The levels that a loop goes through: one for each item of an array or member of an
object. -/
def loopLevels (names : List String) : Json → List Level
  | .array items =>
    items.zipIdx.map fun (item, i) =>
      ⟨item, position i items.length, given names item (natural i)⟩
  | .object members =>
    members.zipIdx.map fun ((name, item), i) =>
      ⟨item, ("key", .string name) :: position i members.length,
        given names item (.string name)⟩
  | _ => []

/-- The level of a block that changes the context. -/
def contextLevel (names : List String) (v : Json) : Level :=
  match names with
  | [name] => ⟨v, [], [(name, v)]⟩
  | _ => ⟨v, [], []⟩

/-- Which branch of a conditional is rendered. -/
def holds (call : Call) : Bool :=
  let zero := match call.options.find? "includeZero" with
    | some (.bool b) => b
    | _ => false
  let value := isTrue zero (call.args.headD .null)
  if call.name = "unless" then !value else value

/-! ## Inclusions -/

/-- The templates that are defined in place, by name. -/
abbrev Definitions := Entries (List Node)

/-- What a part of a template is rendered to, and the definitions after it. -/
abbrev Rendered := Except RenderError (List Char × Definitions)

/-- Indents every line but the first, except an empty last one. -/
def indentLines (indent : List Char) : List Char → List Char
  | [] => []
  | ['\n'] => ['\n']
  | '\n' :: cs => '\n' :: (indent ++ indentLines indent cs)
  | c :: cs => c :: indentLines indent cs

/-- The name under which an included template sees the body of the inclusion. -/
def bodyName : String := "@partial-block"

/-- A value as an object with more members. -/
def extended (v : Json) (members : Entries Json) : Json :=
  match v with
  | .object old => .object (members.foldl (fun all m => Entries.insert m.1 m.2 all) old)
  | _ => .object (Entries.ordered members)

/-- The scope of an included template: an argument is its context, and options are
members of its context. -/
def includedScope (s : Scope) (call : Call) : Scope :=
  let context := call.args.headD (s.contextAt 0)
  let context := if call.options.isEmpty then context else extended context call.options
  if call.args.isEmpty ∧ call.options.isEmpty then s
  else if call.args.isEmpty then s.inside ⟨context, [], []⟩
  else { s with levels := [⟨context, [], []⟩] }

/-- The nodes of an included template, and the scope in which they are rendered. -/
def included? (s : Scope) (definitions : Definitions) (call : Call) (body : Option (List Node)) :
    Except RenderError (Scope × List Node) :=
  let inner := includedScope s call
  let inner := match body with
    | some nodes => { inner with bodies := nodes :: inner.bodies }
    | none => inner
  if call.name = bodyName then
    match s.bodies with
    | nodes :: bodies => .ok ({ inner with bodies := bodies }, nodes)
    | [] => .error (.unknownTemplate call.name)
  else
    match (definitions.find? call.name).or body with
    | some nodes => .ok (inner, nodes)
    | none => .error (.unknownTemplate call.name)

/-- Defines a template. -/
def define (s : Scope) (definitions : Definitions) (head : Head) (body : List Node) :
    Except RenderError Definitions := do
  let call ← head.eval s
  if call.name ≠ "inline" then .error (.unknownDecorator call.name)
  else match call.args with
    | .string name :: _ => return definitions.set name body
    | _ :: _ => .error .nameNotText
    | [] => .error (.missingArgument call.name)

/-- Takes the definitions at the start of nodes and among them, and nothing else. -/
def defineAll (s : Scope) (definitions : Definitions) (nodes : List Node) :
    Except RenderError Definitions :=
  nodes.foldlM (fun definitions n => match n with
    | .definition head body => define s definitions head body
    | .decorator head => do
      let call ← head.eval s
      .error (if call.name = "inline" then .missingArgument call.name
        else .unknownDecorator call.name)
    | _ => .ok definitions) definitions

/-! ## Nodes -/

/-- How an included template is rendered. -/
abbrev Renderer := Scope → Definitions → List Node → Rendered

mutual

/-- Renders a node. -/
def renderNode (next : Renderer) (s : Scope) (definitions : Definitions) : Node → Rendered
  | .text content => .ok (content, definitions)
  | .output head => do return (shown (← head.output s), definitions)
  | .block head names body otherwise => do
    let call ← head.eval s
    match call.name, call.args with
    | "if", _ :: _ | "unless", _ :: _ =>
      if holds call then renderNodes next s definitions body
      else renderNodes next s definitions otherwise
    | "with", v :: _ =>
      if isTrue false v then renderNodes next (s.inside (contextLevel names v)) definitions body
      else renderNodes next s definitions otherwise
    | "each", v :: _ =>
      match loopLevels names v with
      | [] => renderNodes next s definitions otherwise
      | levels =>
        levels.foldlM (fun (text, definitions) l => do
          let (more, definitions) ← renderNodes next (s.inside l) definitions body
          return (text ++ more, definitions)) ([], definitions)
    | "raw", _ => renderNodes next s definitions body
    | _, _ => return (shown (← helperValue call.name call.args call.options), definitions)
  | .decorator head => do return ([], ← defineAll s definitions [.decorator head])
  | .definition head body => do return ([], ← define s definitions head body)
  | .inclusion head indent => do
    let (inner, nodes) ← included? s definitions (← head.eval s) none
    let (text, definitions) ← next inner definitions nodes
    return (indentLines indent text, definitions)
  | .inclusionBlock head body => do
    let call ← head.eval s
    let definitions ← defineAll s definitions body
    let (inner, nodes) ← included? s definitions call (some body)
    next inner definitions nodes

/-- Renders nodes one after the other. -/
def renderNodes (next : Renderer) (s : Scope) (definitions : Definitions) :
    List Node → Rendered
  | [] => .ok ([], definitions)
  | n :: ns => do
    let (text, definitions) ← renderNode next s definitions n
    let (more, definitions) ← renderNodes next s definitions ns
    return (text ++ more, definitions)

end

/-- Renders nodes in which inclusions nest at most this deep. -/
def renderWithin : (depth : Nat) → Renderer
  | 0 => fun _ _ _ => .error .endless
  | depth + 1 => renderNodes (renderWithin depth)

/-- The depth to which inclusions nest. -/
def deepest : Nat := 500

/-- Renders a template with its parameters. -/
def render (template : List Char) (params : Entries Json) : Except TemplateError (List Char) :=
  match parse? template with
  | none => .error .malformed
  | some nodes =>
    match renderWithin deepest (.ofRoot (.object (splitParameters params))) [] nodes with
    | .ok (text, _) => .ok text
    | .error e => .error (.unrenderable e)

end ReportQuery.Template
