import ReportQuery.Host
import ReportQuery.Settings.Reader
/-!
# Finding the settings file

The settings are read from the file that an environment variable names. If it is not set,
they are read from a file in the working directory, or else from one in the user's directory
for settings. If there is neither, nothing is set.
-/

namespace ReportQuery.Settings

/-- The variable that names the settings file. -/
def fileVariable : String := "GAARF_CONFIG"

/-- The settings file in the working directory. -/
def localFile : String := "gaarf.toml"

/-- The settings file in the user's directory for settings. -/
def userFile (directory : String) : String := directory ++ "/gaarf/config.toml"

variable {m : Type → Type} [Monad m]

/-- Loads a settings file. -/
def load (host : Host m) (path : String) : m (Except SettingsError Settings) := do
  match ← host.read path with
  | .ok text => return read text
  | .error fault => return .error (if fault.isMissing then .absent path else .unreadable fault.message)

/-- Loads the first of several files that exists. -/
def loadFirst (host : Host m) : List String → m (Except SettingsError Settings)
  | [] => return .ok empty
  | path :: rest => do
    match ← host.read path with
    | .ok text => return read text
    | .error fault =>
      if fault.isMissing then loadFirst host rest else return .error (.unreadable fault.message)

/-- The user's directory for settings: the one that is given, if it is an absolute
path, or else `.config` in the home directory. -/
def userDirectory? (given home : Option String) : Option String :=
  match given.filter fun path => path.toList.head? = some '/' with
  | some path => some path
  | none => (home.filter fun path => path ≠ "").map (· ++ "/.config")

/-- Finds the settings file and loads it. -/
def find (host : Host m) : m (Except SettingsError Settings) := do
  match ← host.variableValue? fileVariable with
  | some path => load host path
  | none =>
    let given ← host.variableValue? "XDG_CONFIG_HOME"
    let home ← host.variableValue? "HOME"
    loadFirst host (localFile :: ((userDirectory? given home).map userFile).toList)

end ReportQuery.Settings
