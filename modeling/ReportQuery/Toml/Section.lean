import ReportQuery.Entries
import ReportQuery.Toml.Basic
/-!
# Tables while they are read

A table can be given piece by piece: by a header, by the headers of its parts, or by
dotted names. No value is given twice, and a table is given in one way only: a header
can name a table that exists because of its parts, but none that a header or a
dotted name has given before; a dotted name can go on with a table that dotted names have
given. A value that is complete is never extended.
-/

namespace ReportQuery.Toml

/-- How a table has come to exist. -/
inductive Origin where
  /-- By a header of its own. -/
  | header
  /-- By the header of one of its parts. -/
  | part
  /-- By a dotted name. -/
  | dotted
deriving DecidableEq

/-- What a name stands for while a file is read. -/
inductive Section where
  /-- A complete value. -/
  | value (v : Toml)
  | table (origin : Origin) (members : List (String × Section))
  /-- An array of tables that headers give one by one, last first. -/
  | tables (items : List (List (String × Section)))

/-- The members of a table that is read. -/
abbrev Members := Entries Section

mutual

/-- The value that has been read. -/
def Section.toValue : Section → Toml
  | .value v => v
  | .table _ members => .table (valuesOf members)
  | .tables items => .array (tablesOf items [])

/-- The values of members. -/
def valuesOf : List (String × Section) → List (String × Toml)
  | [] => []
  | (name, s) :: rest => (name, s.toValue) :: valuesOf rest

/-- The tables of an array, first one first. -/
def tablesOf : List (List (String × Section)) → List Toml → List Toml
  | [], after => after
  | members :: items, after => tablesOf items (.table (valuesOf members) :: after)

end

/-- Adds a value under a dotted name. `ownTable` says whether the table has been given by
dotted names, or is the one that is read; a value can be added to no other. -/
def addValue? (ownTable : Bool) : List String → Toml → Members → Option Members
  | [], _, _ => none
  | [name], v, members =>
    if ownTable ∧ !members.has name then some (members.set name (.value v)) else none
  | name :: path, v, members =>
    match members.find? name with
    | none => (addValue? true path v []).map fun inner => members.set name (.table .dotted inner)
    | some (.table .dotted inner) =>
      (addValue? true path v inner).map fun inner => members.set name (.table .dotted inner)
    | some (.table .part inner) =>
      (addValue? false path v inner).map fun inner => members.set name (.table .part inner)
    | some (.tables (last :: before)) =>
      (addValue? false path v last).map fun last => members.set name (.tables (last :: before))
    | some _ => none

/-- Changes the table that a header names. Tables on the way that do not exist are
added, and of an array of tables the last one is meant. -/
def within? (f : Members → Option Members) : List String → Members → Option Members
  | [], members => f members
  | name :: path, members =>
    match members.find? name with
    | none => (within? f path []).map fun inner => members.set name (.table .part inner)
    | some (.table origin inner) =>
      (within? f path inner).map fun inner => members.set name (.table origin inner)
    | some (.tables (last :: before)) =>
      (within? f path last).map fun last => members.set name (.tables (last :: before))
    | some _ => none

/-- Gives a table by its header. -/
def openTable? (name : String) (members : Members) : Option Members :=
  match members.find? name with
  | none => some (members.set name (.table .header []))
  | some (.table .part inner) => some (members.set name (.table .header inner))
  | some _ => none

/-- Gives one more table of an array by its header. -/
def openItem? (name : String) (members : Members) : Option Members :=
  match members.find? name with
  | none => some (members.set name (.tables [[]]))
  | some (.tables items) => some (members.set name (.tables ([] :: items)))
  | some _ => none

end ReportQuery.Toml
