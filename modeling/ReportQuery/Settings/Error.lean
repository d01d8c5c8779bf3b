import ReportQuery.Retry
/-!
# Causes of settings errors
-/

namespace ReportQuery

/-- Why settings do not load or cannot be used. -/
inductive SettingsError where
  /-- There is no settings file at this path. -/
  | absent (path : String)
  /-- A settings file cannot be read. -/
  | unreadable (reason : String)
  /-- A settings file does not have the form of settings. -/
  | malformed
  /-- A path refers to a variable that is not set. -/
  | unsetVariable (name : String)
  /-- The number of attempts is limited to none. -/
  | noAttempts
  /-- The delay strategy is not known. -/
  | unknownStrategy (cause : UnknownDelayStrategy)
deriving DecidableEq

/-- The text of an error. The details of a malformed file are left out. -/
def SettingsError.message : SettingsError → String
  | absent path => "Config file not found: " ++ path
  | unreadable reason => "Failed to read config file: " ++ reason
  | malformed => "Failed to parse config file"
  | unsetVariable name => "Missing environment variable: " ++ name
  | noAttempts => "Invalid configuration: retry.max_attempts must be at least 1"
  | unknownStrategy cause => "Invalid configuration: " ++ cause.message

end ReportQuery
