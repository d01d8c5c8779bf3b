import ReportQuery.Command.Arguments
import ReportQuery.Command.Error
import ReportQuery.Command.Log
import ReportQuery.Command.Table
import ReportQuery.Settings.Discovery
/-!
# Running commands

A command first finds its settings, then reads the query, then the schema, and works on
what it has read. A schema that the command does not name is the one of the settings. The
values that a command gives win over those of the settings; a query is rendered as a
template if there are any template parameters. The retry settings are part of the terms for
reading the schema, and a fault in them counts before one of the schema.
-/

namespace ReportQuery

open ReportQuery.Text

/-- What a command leaves behind. -/
structure Outcome where
  result : Except CommandError (List Char)
  log : List LogEntry

namespace Command

/-- The macros of a command. -/
def macros (s : Settings) (given : GivenValues) : Macros :=
  s.mergedMacros (given.macros.map fun v => (v.1, .text v.2))

/-- The template parameters of a command, if there are any. -/
def template (s : Settings) (given : GivenValues) : Option (Entries Json) :=
  match s.mergedTemplate (given.params.map fun v => (v.1, .string v.2)) with
  | [] => none
  | params => some params

/-- The text of a compiled query that has been read from a file. -/
def shown (file : String) (q : CompiledQuery) : OutputForm → List Char
  | .text => q.table file
  | .json => q.toJson.indented 0

/-- Compiles a query and shows it. -/
def compiled (s : Settings) (now : Instant) (schema : Schema) (file : String)
    (text : List Char) (given : GivenValues) (form : OutputForm) : Outcome :=
  match expandQuery now (template s given) (macros s given) text with
  | (_, .error e) => ⟨.error (.compilation e), []⟩
  | (macros, .ok expansion) =>
    let log := if expansion.unresolved = [] then [] else [.unresolved expansion.unresolved]
    match compileExpansion schema macros expansion with
    | .error e => ⟨.error (.compilation e), log⟩
    | .ok query =>
      ⟨.ok (shown file query.compiled form), log ++ [.compiled query.compiled.columns.length]⟩

/-- Puts templates and macros into a query. -/
def expanded (s : Settings) (now : Instant) (text : List Char) (given : GivenValues) : Outcome :=
  match (expandQuery now (template s given) (macros s given) text).2 with
  | .error e => ⟨.error (.expansion e), []⟩
  | .ok expansion => ⟨.ok expansion.text.toList, expansion.unresolved.map .notSpecified⟩

/-- The line of a resource: its type, or why it has none. -/
def resourceLine (schema : Schema) (name : String) : String :=
  match schema.resource name with
  | .ok type => s!"  - {name} ({type.name})"
  | .error e => s!"  - {name} (unresolved: {e.message})"

/-- Lists the resources of a schema. -/
def listed (schema : Schema) : Outcome :=
  ⟨.ok <| join ['\n'] <| (s!"Namespace: {schema.package}" :: "" :: "Resources:" ::
    schema.row.names.map (resourceLine schema)).map String.toList, []⟩

/-! ## What is read -/

variable {m : Type → Type} [Monad m]

/-- Reads a query. -/
def readQuery (host : Host m) (file : String) : ExceptT CommandError m (List Char) := do
  match ← host.read file with
  | .ok text => return text
  | .error fault => throw (.query file fault)

/-- The values of the variables that the schema path of the settings refers to. -/
def variableValues (host : Host m) (s : Settings) : m (Entries (Option String)) :=
  (Variable.names (s.schemaPath.getD "").toList).mapM fun name => do
    return (name, ← host.variableValue? name)

/-- The path of the schema. -/
def schemaFile (host : Host m) (s : Settings) (named : Option String) :
    ExceptT CommandError m String := do
  match named with
  | some file => return file
  | none =>
    let values ← ExceptT.lift (variableValues host s)
    match s.schemaFile? fun name => (values.find? name).join with
    | .ok (some file) => return file
    | .ok none => throw .noSchema
    | .error e => throw (.settings e)

/-- Reads a schema. -/
def readSchema (host : Host m) (s : Settings) (named : Option String) :
    ExceptT CommandError m Schema := do
  let file ← schemaFile host s named
  match s.retry.policy with
  | .error e => throw (.settings e)
  | .ok _ =>
    match ← host.read file with
    | .error fault => throw (.schema file (.unreadable file fault.message))
    | .ok text =>
      match Schema.read text with
      | .ok schema => return schema
      | .error e => throw (.schema file e)

/-- Runs a command under some settings. -/
def run (host : Host m) (s : Settings) : Command → ExceptT CommandError m Outcome
  | .compile file named given form => do
    let text ← readQuery host file
    let schema ← readSchema host s named
    return compiled s (← host.now) schema file text given form
  | .expand file given => do
    let text ← readQuery host file
    return expanded s (← host.now) text given
  | .resources named => do return listed (← readSchema host s named)

end Command

/-- Finds the settings and runs the command. -/
def Invocation.run {m : Type → Type} [Monad m] (host : Host m) (i : Invocation) : m Outcome := do
  let settings ← match i.config with
    | some file => Settings.load host file
    | none => Settings.find host
  match settings with
  | .error e => return ⟨.error (.settings e), []⟩
  | .ok s =>
    match ← (i.command.run host s).run with
    | .ok outcome => return outcome
    | .error e => return ⟨.error e, []⟩

end ReportQuery
