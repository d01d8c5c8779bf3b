import ReportQuery.Host
import ReportQuery.Preparation
import ReportQuery.Settings.Error
/-!
# Causes of failed commands
-/

namespace ReportQuery

/-- Why a command fails. -/
inductive CommandError where
  /-- The settings do not load or cannot be used. -/
  | settings (cause : SettingsError)
  /-- The query cannot be read. -/
  | query (file : String) (fault : FileFault)
  /-- No schema has been named. -/
  | noSchema
  /-- The schema does not load. -/
  | schema (file : String) (cause : SchemaError)
  /-- The query does not compile. -/
  | compilation (cause : PreparationError)
  /-- Templates and macros cannot be put into the query. -/
  | expansion (cause : PreparationError)
deriving DecidableEq

/-- The text of an error. -/
def CommandError.message : CommandError → String
  | settings cause => s!"Configuration error: {cause.message}"
  | query file fault => s!"Error reading file '{file}': {fault.message}"
  | noSchema => "No schema given: pass --schema or set [schema] path in gaarf.toml"
  | schema file cause => s!"Error loading schema '{file}': {cause.message}"
  | compilation cause => s!"Compilation error: {cause.message}"
  | expansion cause => s!"Expansion error: {cause.message}"

end ReportQuery
