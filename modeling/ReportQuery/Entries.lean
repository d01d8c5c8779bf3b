/-!
# Entries by name

A finite map from names, as a list of entries. Lookup finds the first entry of a
name. There are two ways to add an entry: `insert` keeps the names in ascending
order, which is the order of descriptors and template parameters; `set` keeps the
place of an entry that is there and appends a new one, so that the order is that
of first mention.
-/

namespace ReportQuery

/-- Entries by name. -/
abbrev Entries (α : Type) := List (String × α)

namespace Entries

variable {α β : Type}

/-- The value of a name. -/
def find? (name : String) : Entries α → Option α
  | [] => none
  | (n, a) :: rest => if n = name then some a else find? name rest

/-- The names, in order. -/
def names (entries : Entries α) : List String := entries.map Prod.fst

/-- Whether a name has an entry. -/
def has (name : String) (entries : Entries α) : Bool := (find? name entries).isSome

/-- Adds an entry at its place in ascending order of names, or replaces the entry
of that name. -/
def insert (name : String) (value : α) : Entries α → Entries α
  | [] => [(name, value)]
  | (n, a) :: rest =>
    if name < n then (name, value) :: (n, a) :: rest
    else if n = name then (name, value) :: rest
    else (n, a) :: insert name value rest

/-- Entries in ascending order of names; of two entries of one name the later
counts. -/
def ordered (entries : Entries α) : Entries α :=
  entries.foldl (fun sorted e => insert e.1 e.2 sorted) []

/-- Replaces the value of a name where it stands, or appends an entry. -/
def set (name : String) (value : α) : Entries α → Entries α
  | [] => [(name, value)]
  | (n, a) :: rest => if n = name then (n, value) :: rest else (n, a) :: set name value rest

/-- Removes the entry of a name. -/
def erase (name : String) : Entries α → Entries α
  | [] => []
  | (n, a) :: rest => if n = name then rest else (n, a) :: erase name rest

/-- Overlays `entries` with others, whose values win. -/
def overlay (entries : Entries α) (others : Entries α) : Entries α :=
  others.foldl (fun all e => set e.1 e.2 all) entries

end Entries
end ReportQuery
