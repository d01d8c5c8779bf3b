import ReportQuery.Settings.Basic
import ReportQuery.Toml.Document
/-!
# Reading settings

A settings file has the sections `schema`, `macros`, `template` and `retry`. Each can be
left out, and so can every entry of the first and the last. Other names have no meaning.
The sections `schema` and `retry` can also be arrays of their entries, in order. A moment
counts as a table with its text as the only member.
-/

namespace ReportQuery

/-- The name of the member that holds the text of a moment. -/
def Toml.momentName : String := "$__toml_private_datetime"

/-- The members of a table. -/
def Toml.asTable? : Toml → Option (Entries Toml)
  | .table members => some members
  | .moment s => some [(momentName, .text s)]
  | _ => none

/-- The entries of a section with entries of these names. -/
def Toml.entries? (names : List String) : Toml → Option (Entries Toml)
  | .array items => some (names.zip items)
  | v => v.asTable?

/-- The value of an entry, or what holds if it is left out. -/
def Toml.orElse {α : Type} (ifMissing : α) (read : Toml → Option α) : Option Toml → Option α
  | none => some ifMissing
  | some v => read v

/-- A text. -/
def Toml.text? : Toml → Option String
  | .text s => some s
  | _ => none

/-- A natural number below a bound. -/
def Toml.natBelow? (bound : Nat) : Toml → Option Nat
  | .integer (.ofNat n) => if n < bound then some n else none
  | _ => none

/-- The macro value of a scalar. An integer beyond the signed 64-bit range becomes a
double, if it is in the unsigned one. -/
def MacroValue.ofToml? : Toml → Option MacroValue
  | .bool b => some (bool b)
  | .integer n =>
    if Int64.minValue.toInt ≤ n ∧ n ≤ Int64.maxValue.toInt then some (int (Int64.ofInt n))
    else if 0 ≤ n ∧ n < UInt64.size then some (double n.toNat.toUInt64.toFloat)
    else none
  | .double x => some (double x)
  | .text s => some (.text s)
  | _ => none

/-- The number of an integer in the signed or the unsigned 64-bit range. -/
def JsonNumber.ofInt? (n : Int) : Option JsonNumber :=
  if 0 ≤ n ∧ n < UInt64.size then some (natural n.toNat.toUInt64)
  else if Int64.minValue.toInt ≤ n ∧ n < 0 then some (negative (Int64.ofInt n))
  else none

mutual

/-- The data value of a template parameter. Doubles that are no numbers become null. -/
def Json.ofToml? : Toml → Option Json
  | .text s => some (.string s)
  | .integer n => (JsonNumber.ofInt? n).map .number
  | .double x => some (if x.isFinite then .number (.double x) else .null)
  | .bool b => some (.bool b)
  | .moment s => some (.object [(Toml.momentName, .string s)])
  | .array items => (Json.itemsOfToml? items).map .array
  | .table members => (Json.membersOfToml? members).map .object

/-- The data values of items. -/
def Json.itemsOfToml? : List Toml → Option (List Json)
  | [] => some []
  | item :: items => do return (← Json.ofToml? item) :: (← Json.itemsOfToml? items)

/-- The data values of members. -/
def Json.membersOfToml? : List (String × Toml) → Option (List (String × Json))
  | [] => some []
  | (name, v) :: members => do
    return (name, ← Json.ofToml? v) :: (← Json.membersOfToml? members)

end

/-- The macros of a table. -/
def Macros.ofToml? (v : Toml) : Option Macros := do
  (← v.asTable?).mapM fun m => do return (m.1, ← MacroValue.ofToml? m.2)

/-- The template parameters of a table, in ascending order. -/
def templateOfToml? (v : Toml) : Option (Entries Json) := do
  return Json.canonicalMembers [] (← Json.membersOfToml? (← v.asTable?))

/-- The path in the section of the schema. -/
def schemaPathOfToml? (v : Toml) : Option (Option String) := do
  let entries ← v.entries? ["path"]
  Toml.orElse none (fun path => path.text?.map some) (entries.find? "path")

/-- The section on retrying. -/
def RetrySettings.ofToml? (v : Toml) : Option RetrySettings := do
  let entries ← v.entries? ["strategy", "base_delay_ms", "max_attempts"]
  let strategy ← Toml.orElse default.strategy Toml.text? (entries.find? "strategy")
  let baseDelay ← Toml.orElse default.baseDelay
    (fun v => (v.natBelow? UInt64.size).map Nat.toUInt64) (entries.find? "base_delay_ms")
  let maxAttempts ← Toml.orElse default.maxAttempts
    (fun v => (v.natBelow? UInt32.size).map fun n => some n.toUInt32) (entries.find? "max_attempts")
  return ⟨strategy, baseDelay, maxAttempts⟩

namespace Settings

/-- The settings that the sections of a file describe. -/
def ofSections? (sections : Entries Toml) : Option Settings := do
  let schemaPath ← Toml.orElse none schemaPathOfToml? (sections.find? "schema")
  let macros ← Toml.orElse [] Macros.ofToml? (sections.find? "macros")
  let template ← Toml.orElse [] templateOfToml? (sections.find? "template")
  let retry ← Toml.orElse RetrySettings.default RetrySettings.ofToml? (sections.find? "retry")
  return ⟨schemaPath, macros, template, retry⟩

/-- Reads the text of a settings file. -/
def read (text : List Char) : Except SettingsError Settings :=
  match (Toml.read? text).bind ofSections? with
  | some s => .ok s
  | none => .error .malformed

end Settings
end ReportQuery
