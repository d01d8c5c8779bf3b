import ReportQuery.Entries
/-!
# Commands

What the program can be asked to do: compile a query and show its columns, put templates
and macros into a query, or list the resources of a schema.
-/

namespace ReportQuery

/-- The form in which a compiled query is shown. -/
inductive OutputForm where
  /-- The text to send and a table of the columns. -/
  | text
  /-- A data value. -/
  | json
deriving DecidableEq

/-- The values that a command puts into a query. -/
structure GivenValues where
  macros : Entries String
  params : Entries String
deriving DecidableEq

/-- A command. -/
inductive Command where
  | compile (file : String) (schema : Option String) (given : GivenValues) (form : OutputForm)
  | expand (file : String) (given : GivenValues)
  | resources (schema : Option String)
deriving DecidableEq

/-- A command and how to run it. -/
structure Invocation where
  /-- The settings file, if it is named. -/
  config : Option String
  /-- Whether details are logged. -/
  verbose : Bool
  command : Command
deriving DecidableEq

end ReportQuery
