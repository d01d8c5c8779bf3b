/-!
# Causes of template errors
-/

namespace ReportQuery

/-- Why a template cannot be rendered. -/
inductive RenderError where
  | unknownHelper (name : String)
  | unknownDecorator (name : String)
  | unknownTemplate (name : String)
  /-- A helper or decorator without an argument that it needs. -/
  | missingArgument (name : String)
  /-- The name of a definition that is no text. -/
  | nameNotText
  /-- A step into an array by something else than a number. -/
  | indexNotNumber (name : String)
  | unknownLogLevel (name : String)
  /-- Templates that include each other without end. -/
  | endless
deriving DecidableEq

/-- The text of a cause. -/
def RenderError.message : RenderError → String
  | unknownHelper name => s!"unknown helper '{name}'"
  | unknownDecorator name => s!"unknown decorator '{name}'"
  | unknownTemplate name => s!"unknown template '{name}'"
  | missingArgument name => s!"'{name}' needs more arguments"
  | nameNotText => "the name of a definition is no text"
  | indexNotNumber name => s!"'{name}' is no index of an array"
  | unknownLogLevel name => s!"unknown log level '{name}'"
  | endless => "templates include each other without end"

/-- Why a template has no result. -/
inductive TemplateError where
  /-- The text is no template. -/
  | malformed
  | unrenderable (cause : RenderError)
deriving DecidableEq

/-- The text of an error. -/
def TemplateError.message : TemplateError → String
  | malformed => "template syntax error"
  | unrenderable cause => s!"template rendering failed: {cause.message}"

end ReportQuery
