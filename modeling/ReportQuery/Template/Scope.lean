import ReportQuery.Template.Error
import ReportQuery.Template.Syntax
import ReportQuery.Text.Integer
/-!
# Scopes

A block can have a context of its own, in which paths start, and it can give names to
values and set variables. A scope is the parameters of the template and the blocks that are
open. A path that leads nowhere has the value null; only a step into an array by
something else than a number is an error.
-/

namespace ReportQuery.Template

open ReportQuery.Text

/-- A block with a context. -/
structure Level where
  context : Json
  /-- The variables that are written with an at sign. -/
  loopValues : Entries Json
  /-- The names that the tag of the block gives to values. -/
  names : Entries Json

/-- What a part of a template sees. -/
structure Scope where
  root : Json
  /-- The blocks that are open, innermost first. -/
  levels : List Level
  /-- The bodies of the inclusions that are open, innermost first. -/
  bodies : List (List Node)

/-- The scope of a whole template. -/
def Scope.ofRoot (root : Json) : Scope := ⟨root, [⟨root, [], []⟩], []⟩

/-- The index that a name is, with or without a plus sign. -/
def index? (name : String) : Option Nat :=
  let digits := match name.toList with
    | '+' :: digits => digits
    | digits => digits
  (readNat? digits).filter fun n => n < UInt64.size

/-- The value that names lead to. -/
def descend : Json → List String → Except RenderError Json
  | v, [] => .ok v
  | .array items, name :: names =>
    match index? name with
    | none => .error (.indexNotNumber name)
    | some i =>
      match items[i]? with
      | some v => descend v names
      | none => .ok .null
  | .object members, name :: names =>
    match Entries.find? name members with
    | some v => descend v names
    | none => .ok .null
  | _, _ :: _ => .ok .null

namespace Scope

/-- The context this many blocks out, or the innermost if there are not as many. -/
def contextAt (s : Scope) (blocks : Nat) : Json :=
  match (s.levels[blocks]?).or s.levels.head? with
  | some l => l.context
  | none => s.root

/-- The value that an open block gives to a name. -/
def named? (s : Scope) (name : String) : Option Json :=
  s.levels.findSome? fun l => l.names.find? name

/-- The value of names that start in the context this many blocks out. Names that
blocks give go before the names of that context. -/
def fieldAt (s : Scope) (blocks : Nat) (names : List String) : Except RenderError Json :=
  match names with
  | name :: rest =>
    match s.named? name with
    | some v => descend v rest
    | none => descend (s.contextAt blocks) names
  | [] => .ok (s.contextAt blocks)

/-- The value of a path. -/
def value (s : Scope) : Path → Except RenderError Json
  | .loop blocks name =>
    .ok (((s.levels[blocks]?).bind fun l => l.loopValues.find? name).getD .null)
  | .field .here names => s.fieldAt 0 names
  | .field (.outer blocks) names => s.fieldAt blocks names
  | .field .root names => descend s.root names

/-- The scope inside a block with a context. -/
def inside (s : Scope) (l : Level) : Scope := { s with levels := l :: s.levels }

end Scope
end ReportQuery.Template
