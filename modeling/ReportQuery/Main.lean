import ReportQuery.Command.Program
import Std.Time
/-!
# The command line

The machine that the program runs on, and its streams.
-/

open ReportQuery

/-- Why the operating system does not give a file. -/
def faultOf (e : IO.Error) : FileFault :=
  match e with
  | .noFileOrDirectory .. => .absent
  | .inappropriateType _ code _ => if code = 21 then .directory else .beyondFile
  | .permissionDenied .. => .other "Permission denied (os error 13)"
  | other => .other (toString other)

/-- Reads a file of this machine. -/
def readFile (path : String) : IO (Except FileFault (List Char)) := do
  try
    let bytes ← IO.FS.readBinFile path
    match String.fromUTF8? bytes with
    | some text => return .ok text.toList
    | none => return .error .notText
  catch e => return .error (faultOf e)

/-- The time on this machine. -/
def currentInstant : IO Instant := do
  let now ← Std.Time.PlainDateTime.now
  let day := Date.of? now.date.year.toInt now.date.month.val.toNat now.date.day.val.toNat
  match day with
  | some date =>
    return ⟨date, now.time.hour.val.toNat, now.time.minute.val.toNat, now.time.second.val.toNat⟩
  | none => throw (IO.userError "the clock shows no date")

/-- This machine. -/
def thisMachine : Host IO := ⟨readFile, fun name => IO.getEnv name, currentInstant⟩

/-- Runs the program and writes what it ends with. -/
def main (arguments : List String) : IO UInt32 := do
  let ending ← runProgram thisMachine arguments
  for entry in ending.log do
    IO.eprintln entry.text
  IO.print ending.output
  IO.eprint ending.complaint
  return ending.exitCode
