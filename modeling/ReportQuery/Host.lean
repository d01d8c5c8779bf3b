import ReportQuery.Calendar.Date
/-!
# Hosts

What the program asks of the machine that it runs on: the text of a file, the value of an
environment variable, and the time. Everything that does so is a function of a host, in
any monad, so that it runs on a real machine and on one that a test makes up alike.
-/

namespace ReportQuery

/-- Why a file cannot be read. -/
inductive FileFault where
  /-- There is no such file. -/
  | absent
  /-- The path goes on after a file. -/
  | beyondFile
  /-- The path leads to a directory. -/
  | directory
  /-- The bytes of the file are no text. -/
  | notText
  /-- Any other reason. -/
  | other (reason : String)
deriving DecidableEq

namespace FileFault

/-- The text of a fault. -/
def message : FileFault → String
  | absent => "No such file or directory (os error 2)"
  | beyondFile => "Not a directory (os error 20)"
  | directory => "Is a directory (os error 21)"
  | notText => "stream did not contain valid UTF-8"
  | other reason => reason

/-- Whether nothing is at the path. -/
def isMissing : FileFault → Bool
  | absent | beyondFile => true
  | _ => false

end FileFault

/-- A machine, as far as the program sees it. -/
structure Host (m : Type → Type) where
  /-- Reads a file. -/
  read : (path : String) → m (Except FileFault (List Char))
  /-- The value of an environment variable that is set. -/
  variableValue? : (name : String) → m (Option String)
  /-- The time. -/
  now : m Instant

end ReportQuery
