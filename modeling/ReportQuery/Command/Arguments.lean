import ReportQuery.Command.Basic
import ReportQuery.Macro.Value
/-!
# Arguments

An invocation is read from arguments, one after the other. The name of a command stands
between the options of the program and those of the command; `--verbose` and `--config`
can stand on both sides, and the side of the command counts. An option that takes a value
takes the next argument, or what follows in the same one: `-s=FILE`, `-sFILE` and
`--schema=FILE` are the same. A value in an argument of its own does not start with a dash,
unless it is only a dash. Options without a value can share a dash. After `--`, every argument
is a file. Macros and parameters can be given many times, and everything else once; of
several faults the first counts.
-/

namespace ReportQuery

open ReportQuery.Text

/-- Why arguments are not read to the end. -/
inductive ArgumentStop where
  /-- They ask for help. -/
  | help
  /-- They ask for the version. -/
  | version
  /-- They have a fault. -/
  | misuse
deriving DecidableEq

/-- An option. -/
inductive CommandOption where
  | help
  | version
  | verbose
  | config
  | schema
  | assignment
  | param
  | output
deriving DecidableEq

namespace CommandOption

/-- The option of a long name. -/
def ofName? : String → Option CommandOption
  | "help" => some help
  | "version" => some version
  | "verbose" => some verbose
  | "config" => some config
  | "schema" => some schema
  | "macro" => some assignment
  | "param" => some param
  | "output" => some output
  | _ => none

/-- The option of a letter. -/
def ofLetter? : Char → Option CommandOption
  | 'h' => some help
  | 'V' => some version
  | 'v' => some verbose
  | 's' => some schema
  | 'm' => some assignment
  | 'p' => some param
  | 'o' => some output
  | _ => none

/-- Whether the option takes a value. -/
def takesValue : CommandOption → Bool
  | help | version | verbose => false
  | _ => true

end CommandOption

/-- Whose options are read. -/
inductive ArgumentLevel where
  /-- The options of the program. -/
  | program
  | compile
  | expand
  | resources
  /-- The command to which help is asked for; `complete` says that it has been named. -/
  | help (complete : Bool)
deriving DecidableEq

namespace ArgumentLevel

/-- The level of a command. -/
def ofName? : String → Option ArgumentLevel
  | "compile" => some compile
  | "expand" => some expand
  | "resources" => some resources
  | "help" => some (help false)
  | _ => none

/-- The options of a level. -/
def options : ArgumentLevel → List CommandOption
  | program => [.help, .version, .verbose, .config]
  | compile => [.help, .verbose, .config, .schema, .assignment, .param, .output]
  | expand => [.help, .verbose, .config, .assignment, .param]
  | resources => [.help, .verbose, .config, .schema]
  | help _ => []

/-- Whether a file is named at a level. -/
def hasFile : ArgumentLevel → Bool
  | compile | expand => true
  | _ => false

end ArgumentLevel

/-- What the arguments of a level have given. -/
structure GivenArguments where
  verbose : Bool
  config : Option String
  schema : Option String
  values : GivenValues
  form : Option OutputForm
  file : Option String

namespace GivenArguments

/-- Nothing has been given. -/
def none : GivenArguments := ⟨false, .none, .none, ⟨[], []⟩, .none, .none⟩

/-- A value that is given once; a path is not empty. -/
def once {α : Type} (before : Option α) (value : Option α) : Except ArgumentStop (Option α) :=
  match before, value with
  | .none, some a => .ok (some a)
  | _, _ => .error .misuse

/-- A path. -/
def path? (value : String) : Option String := if value = "" then .none else some value

/-- A form of output. -/
def form? : String → Option OutputForm
  | "text" => some .text
  | "json" => some .json
  | _ => .none

/-- A name and its value, after those before. -/
def assigned (before : Entries String) (value : String) : Except ArgumentStop (Entries String) :=
  match readAssignment? value.toList with
  | some (name, v) => .ok (before ++ [(name, v)])
  | .none => .error .misuse

/-- Takes an option with its value, which is empty for options that have none. -/
def take (g : GivenArguments) (o : CommandOption) (value : String) :
    Except ArgumentStop GivenArguments :=
  match o with
  | .help => .error .help
  | .version => .error .version
  | .verbose => if g.verbose then .error .misuse else .ok { g with verbose := true }
  | .config => do return { g with config := ← once g.config (path? value) }
  | .schema => do return { g with schema := ← once g.schema (path? value) }
  | .output => do return { g with form := ← once g.form (form? value) }
  | .assignment => do
    return { g with values := { g.values with macros := ← assigned g.values.macros value } }
  | .param => do
    return { g with values := { g.values with params := ← assigned g.values.params value } }

/-- Takes the options that share a dash. Returns the last one, too, if its value is to
follow. -/
def takeLetters (level : ArgumentLevel) (g : GivenArguments) :
    List Char → Except ArgumentStop (GivenArguments × Option CommandOption)
  | [] => .ok (g, .none)
  | c :: rest =>
    match (CommandOption.ofLetter? c).filter fun o => o ∈ level.options with
    | .none => .error .misuse
    | some o =>
      if o.takesValue then
        match rest with
        | [] => .ok (g, some o)
        | '=' :: value | value => do return (← g.take o (String.ofList value), .none)
      else do takeLetters level (← g.take o "") rest

/-- Takes an option of a long name, after its dashes. Returns the option, too, if its value
is to follow. -/
def takeName (level : ArgumentLevel) (g : GivenArguments) (text : List Char) :
    Except ArgumentStop (GivenArguments × Option CommandOption) :=
  let (name, value) := match cut? ['='] text with
    | some (name, value) => (name, some (String.ofList value))
    | .none => (text, .none)
  match (CommandOption.ofName? (String.ofList name)).filter fun o => o ∈ level.options with
  | .none => .error .misuse
  | some o =>
    match o.takesValue, value with
    | true, .none => .ok (g, some o)
    | true, some value => do return (← g.take o value, .none)
    | false, .none => do return (← g.take o "", .none)
    | false, some _ => .error .misuse

/-- Takes a file. -/
def takeFile (level : ArgumentLevel) (g : GivenArguments) (text : String) :
    Except ArgumentStop GivenArguments :=
  if level.hasFile then do return { g with file := ← once g.file (path? text) }
  else .error .misuse

end GivenArguments

/-- What has been read up to some argument. -/
structure ArgumentReading where
  level : ArgumentLevel
  /-- What the program has been given before the command. -/
  outer : GivenArguments
  given : GivenArguments
  /-- The option whose value is the next argument. -/
  pending : Option CommandOption
  /-- Whether every argument is a file from here on. -/
  ended : Bool

namespace ArgumentReading

/-- Nothing has been read. -/
def start : ArgumentReading := ⟨.program, .none, .none, none, false⟩

/-- Whether an argument is an option by its form. -/
def isOption : List Char → Bool
  | '-' :: _ :: _ => true
  | _ => false

/-- Takes an argument that is no option by its form, and no value. -/
def takeWord (r : ArgumentReading) (text : String) : Except ArgumentStop ArgumentReading :=
  match r.level, ArgumentLevel.ofName? text with
  | .program, some level => .ok { r with level := level, outer := r.given, given := .none }
  | level, _ => do return { r with given := ← r.given.takeFile level text }

/-- Takes an argument. -/
def step (r : ArgumentReading) (text : String) : Except ArgumentStop ArgumentReading :=
  match r.level, r.pending with
  | .help complete, _ =>
    if !complete && (ArgumentLevel.ofName? text).isSome then .ok { r with level := .help true }
    else .error .misuse
  | _, some o =>
    if r.ended || isOption text.toList then .error .misuse
    else do return { r with given := ← r.given.take o text, pending := none }
  | level, none =>
    if r.ended then do return { r with given := ← r.given.takeFile level text }
    else match text.toList with
      | ['-', '-'] => .ok { r with ended := true }
      | '-' :: '-' :: rest => do
        let (given, pending) ← r.given.takeName level rest
        return { r with given, pending }
      | '-' :: c :: rest => do
        let (given, pending) ← r.given.takeLetters level (c :: rest)
        return { r with given, pending }
      | _ => r.takeWord text

/-- The command of a level, if what it needs has been given. -/
def command? (r : ArgumentReading) : Option Command :=
  let g := r.given
  match r.level, g.file with
  | .compile, some file => some (.compile file g.schema g.values (g.form.getD .text))
  | .expand, some file => some (.expand file g.values)
  | .resources, _ => some (.resources g.schema)
  | _, _ => none

/-- The invocation, when all arguments have been read. -/
def finish (r : ArgumentReading) : Except ArgumentStop Invocation :=
  match r.level, r.pending, r.command? with
  | .help _, _, _ => .error .help
  | _, none, some command =>
    .ok ⟨r.given.config.or r.outer.config, r.given.verbose || r.outer.verbose, command⟩
  | _, _, _ => .error .misuse

end ArgumentReading

/-- Reads an invocation. -/
def Invocation.read (arguments : List String) : Except ArgumentStop Invocation := do
  (← arguments.foldlM ArgumentReading.step .start).finish

end ReportQuery
