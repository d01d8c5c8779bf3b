import ReportQuery.Macro.Expansion
import ReportQuery.Query.Compiled
import ReportQuery.Template.Render
/-!
# Preparing queries

A query text is prepared in three stages: it is rendered as a template, if there are
template parameters; its macros are put in; and it is compiled against a schema. The
macros of the second stage are the parameters of the third, so that a placeholder without
a macro, which the second stage leaves alone, is an error of the third.
-/

namespace ReportQuery

/-- Why a query cannot be prepared, by stage. -/
inductive PreparationError where
  | rendering (cause : TemplateError)
  | expansion (cause : MacroError)
  | compilation (cause : QueryError)
deriving DecidableEq

namespace PreparationError

/-- The text of an error. -/
def message : PreparationError → String
  | rendering cause => "Template error: " ++ cause.message
  | expansion cause => "Macro error: " ++ cause.message
  | compilation cause => "Compile error: " ++ cause.message

/-- The kind of the error of the last stage. -/
def queryKind? : PreparationError → Option QueryErrorKind
  | compilation cause => some cause.kind
  | _ => none

end PreparationError

/-- A query that is ready to be sent. -/
structure PreparedQuery where
  compiled : CompiledQuery
  /-- The text that has been compiled. -/
  text : String

/-- The text of the first stage. -/
def renderQuery (template : Option (Entries Json)) (text : List Char) :
    Except TemplateError (List Char) :=
  match template with
  | some params => Template.render text params
  | none => .ok text

/-- The first two stages. Returns the macros as they are afterwards, too. -/
def expandQuery (now : Instant) (template : Option (Entries Json)) (macros : Macros)
    (text : List Char) : Macros × Except PreparationError Expansion :=
  match renderQuery template text with
  | .error e => (macros, .error (.rendering e))
  | .ok text =>
    let (macros, result) := expand now macros text
    (macros, result.mapError .expansion)

/-- The last stage. -/
def compileExpansion (s : Schema) (macros : Macros) (e : Expansion) :
    Except PreparationError PreparedQuery :=
  match Query.compile s macros.texts e.text.toList with
  | .ok compiled => .ok ⟨compiled, e.text⟩
  | .error e => .error (.compilation e)

/-- All stages. Returns the macros as they are afterwards, too. -/
def prepareQuery (s : Schema) (now : Instant) (template : Option (Entries Json))
    (macros : Macros) (text : List Char) : Macros × Except PreparationError PreparedQuery :=
  let (macros, result) := expandQuery now template macros text
  (macros, result.bind (compileExpansion s macros))

end ReportQuery
