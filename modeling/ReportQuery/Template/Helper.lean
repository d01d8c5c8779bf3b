import ReportQuery.Template.Error
import ReportQuery.Template.Value
import ReportQuery.Text.Casing
/-!
# Helpers

A helper is a function of values. Those that render a body yield an empty text where they
have none.
-/

namespace ReportQuery.Template

open ReportQuery.Text

/-- The names of the helpers. -/
def helperNames : List String :=
  ["if", "unless", "each", "with", "lookup", "raw", "log", "eq", "ne", "gt", "gte", "lt", "lte",
    "and", "or", "not", "len", "upper", "lower", "join"]

/-- The text of the items of an array with a separator between them, or of any other
value as it is. -/
def joined (separator : List Char) : Json → List Char
  | .array items => join separator (plainItems items)
  | v => plain v

/-- The separator of `join`: a text, or else a comma. -/
def separatorOf : List Json → List Char
  | _ :: .string s :: _ => s.toList
  | _ => [',']

/-- The item of an array or the member of an object. -/
def lookUp : Json → Json → Json
  | .array items, .number (.natural n) => (items[n.toNat]?).getD .null
  | .object members, .string name => (Entries.find? name members).getD .null
  | _, _ => .null

/-- The number of items or members, or of bytes of a text. -/
def count : Json → Nat
  | .array items => items.length
  | .object members => members.length
  | .string s => byteLength s.toList
  | _ => 0

/-- The levels of the log, in any case. -/
def isLogLevel (name : String) : Bool :=
  String.ofList (name.toList.map Char.toLower) ∈ ["error", "warn", "info", "debug", "trace"]

/-- Whether an order is one of those that a comparison wants. -/
def comparison (name : String) (o : Option Ordering) : Bool :=
  match o with
  | none => false
  | some o =>
    match name with
    | "gt" => o.isGT
    | "gte" => o.isGE
    | "lt" => o.isLT
    | _ => o.isLE

/-- The value of a helper with arguments and options. -/
def helperValue (name : String) (args : List Json) (options : Entries Json) :
    Except RenderError Json :=
  let first := args.headD .null
  match name with
  | "upper" => .ok (.string (String.ofList (upper (plain first))))
  | "lower" => .ok (.string (String.ofList (lower (plain first))))
  | "join" => .ok (.string (String.ofList (joined (separatorOf args) first)))
  | "and" => .ok (.bool (args.all (isTrue false)))
  | "or" => .ok (.bool (args.any (isTrue false)))
  | "raw" => .ok (.string "")
  | "log" =>
    match options.find? "level" with
    | some (.string level) =>
      if isLogLevel level then .ok (.string "") else .error (.unknownLogLevel level)
    | _ => .ok (.string "")
  | "if" | "unless" | "each" | "with" =>
    if args.isEmpty then .error (.missingArgument name) else .ok (.string "")
  | "not" =>
    if args.isEmpty then .error (.missingArgument name) else .ok (.bool !(isTrue false first))
  | "len" =>
    if args.isEmpty then .error (.missingArgument name)
    else .ok (.number (.natural (count first).toUInt64))
  | "eq" | "ne" | "gt" | "gte" | "lt" | "lte" | "lookup" =>
    match args with
    | l :: r :: _ =>
      match name with
      | "lookup" => .ok (lookUp l r)
      | "eq" => .ok (.bool (same l r))
      | "ne" => .ok (.bool !(same l r))
      | _ => .ok (.bool (comparison name (order l r)))
    | _ => .error (.missingArgument name)
  | _ => .error (.unknownHelper name)

end ReportQuery.Template
