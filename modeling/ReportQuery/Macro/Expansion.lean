import ReportQuery.Expr.Eval
import ReportQuery.Macro.DateLiteral
import ReportQuery.Placeholder
/-!
# Putting macros into a text

Three steps, in this order. The macros are prepared: date literals are replaced by
their dates, and the built-in macros that are missing are added. Then each placeholder
of a known macro is replaced by its text; others stay as they are and are reported.
Last, each expression block `${…}` is replaced by its value. A placeholder inside a block
is replaced before the block is evaluated.

The macros that a run leaves behind are those after preparation, also where a later step
fails. If a date literal fails, the entries before it have been replaced already.
-/

namespace ReportQuery

open ReportQuery.Text

/-- A text after its macros have been put in. -/
structure Expansion where
  text : String
  /-- The names of placeholders without a macro, each once, in order of first
  occurrence. -/
  unresolved : List String
deriving DecidableEq

namespace Macros

/-- Replaces date literals by their dates, entry by entry up to the first that fails. -/
def resolveDates (today : Date) : Macros → Macros × Option MacroError
  | [] => ([], none)
  | (name, .text value) :: rest =>
    if DateLiteral.isMarked value.toList then
      match DateLiteral.resolve name value today with
      | .error e => ((name, .text value) :: rest, some e)
      | .ok date =>
        let (rest, e) := resolveDates today rest
        ((name, .text date) :: rest, e)
    else
      let (rest, e) := resolveDates today rest
      ((name, .text value) :: rest, e)
  | entry :: rest =>
    let (rest, e) := resolveDates today rest
    (entry :: rest, e)

/-- The macros that are there without being given. -/
def builtins (now : Instant) : Entries String := [
  ("date_iso", String.ofList now.date.compact),
  ("yesterday_iso", String.ofList now.date.before.compact),
  ("current_date", String.ofList now.date.text),
  ("current_datetime", String.ofList now.text)]

/-- Adds the built-in macros that are missing. -/
def addBuiltins (now : Instant) (macros : Macros) : Macros :=
  (builtins now).foldl (fun all b => if all.has b.1 then all else all ++ [(b.1, .text b.2)]) macros

/-- Prepares the macros for a run. -/
def prepare (now : Instant) (macros : Macros) : Macros × Option MacroError :=
  match resolveDates now.date macros with
  | (macros, some e) => (macros, some e)
  | (macros, none) => (addBuiltins now macros, none)

end Macros

/-- Puts macros in the place of placeholders. -/
def fillPlaceholders (macros : Macros) (text : List Char) : List Char :=
  replace Placeholder.unmarked (fun p =>
    match macros.find? (Placeholder.name p) with
    | some value => value.display
    | none => p) text

/-- The length of the expression block at the start of a text, 0 if there is none. -/
def blockLength : List Char → Nat
  | '$' :: '{' :: rest =>
    let source := rest.takeWhile fun c => c ≠ '}'
    if source.length < rest.length then source.length + 3 else 0
  | _ => 0

/-- The source of an expression block. -/
def blockSource (block : List Char) : List Char := (block.drop 2).dropLast

/-- Evaluates the expression blocks among the parts of a text, up to the first that
fails. A blank block stands for nothing. -/
def evalParts (scope : Scope) : List Part → Except MacroError (List Char)
  | [] => .ok []
  | .kept c :: rest => do return c :: (← evalParts scope rest)
  | .piece block :: rest =>
    let source := blockSource block
    if trim source = [] then evalParts scope rest
    else match Expr.evaluate scope source with
      | .error e => .error (.expression (String.ofList source) e)
      | .ok value => do return value.display ++ (← evalParts scope rest)

/-- Puts their values in the place of expression blocks. -/
def evalBlocks (scope : Scope) (text : List Char) : Except MacroError (List Char) :=
  evalParts scope (parts (fun _ t => blockLength t) text)

/-- Puts macros into a text. Returns the macros as they are afterwards, too. -/
def expand (now : Instant) (macros : Macros) (text : List Char) :
    Macros × Except MacroError Expansion :=
  match macros.prepare now with
  | (macros, some e) => (macros, .error e)
  | (macros, none) =>
    (macros, do
      let evaluated ← evalBlocks ⟨macros, now⟩ (fillPlaceholders macros text)
      return ⟨String.ofList evaluated, Placeholder.unknown Placeholder.unmarked macros.has text⟩)

end ReportQuery
