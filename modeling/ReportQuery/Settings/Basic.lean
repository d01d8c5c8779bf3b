import ReportQuery.Macro.Value
import ReportQuery.Settings.Variable
/-!
# Settings

What a settings file says: where the schema is, macros and template parameters
that hold unless a command gives others, and when to try again.
-/

namespace ReportQuery

/-- When to try again, as a settings file says it. -/
structure RetrySettings where
  /-- The name of the delay strategy. -/
  strategy : String
  /-- The base delay in milliseconds. -/
  baseDelay : UInt64
  /-- The number of attempts, if it is limited. -/
  maxAttempts : Option UInt32
deriving DecidableEq

/-- What holds where a settings file says nothing. -/
def RetrySettings.default : RetrySettings := ⟨"none", 1000, none⟩

/-- The policy that the settings describe. -/
def RetrySettings.policy (r : RetrySettings) : Except SettingsError RetryPolicy :=
  if r.maxAttempts = some 0 then .error .noAttempts
  else match DelayStrategy.ofName r.strategy with
    | .ok strategy => .ok ⟨strategy, r.baseDelay, r.maxAttempts⟩
    | .error e => .error (.unknownStrategy e)

/-- What a settings file says. -/
structure Settings where
  /-- The path of the schema, with references to variables. -/
  schemaPath : Option String
  macros : Macros
  /-- The template parameters, in ascending order of names. -/
  template : Entries Json
  retry : RetrySettings

namespace Settings

/-- The settings of an empty file. -/
def empty : Settings := ⟨none, [], [], RetrySettings.default⟩

/-- The path of the schema, with the values of variables. -/
def schemaFile? (s : Settings) (value? : String → Option String) :
    Except SettingsError (Option String) :=
  match s.schemaPath with
  | none => .ok none
  | some path => (Variable.expand value? path).map some

/-- The macros, overlaid with others. -/
def mergedMacros (s : Settings) (others : Macros) : Macros := s.macros.overlay others

/-- The template parameters, overlaid with others. -/
def mergedTemplate (s : Settings) (others : Entries Json) : Entries Json :=
  others.foldl (fun all e => all.insert e.1 e.2) s.template

end Settings
end ReportQuery
