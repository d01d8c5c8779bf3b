import ReportQuery.Entries
/-!
# Data values

The values of descriptors and template parameters. Numbers keep the form they
were written in: a number without point and exponent is an integer if it fits in
64 bits, and any other is a double. An object is a list of members, so that a
reader can see a name that is given twice.
-/

namespace ReportQuery

/-- A number of a data value. -/
inductive JsonNumber where
  /-- An integer that is not negative. -/
  | natural (n : UInt64)
  /-- A negative integer. -/
  | negative (n : Int64)
  /-- Any other number. -/
  | double (x : Float)

/-- The number of an integer. -/
def JsonNumber.ofInt64 (i : Int64) : JsonNumber :=
  if 0 ≤ i then .natural i.toUInt64 else .negative i

/-- A data value. -/
inductive Json where
  | null
  | bool (b : Bool)
  | number (n : JsonNumber)
  | string (s : String)
  | array (items : List Json)
  | object (members : List (String × Json))
deriving Inhabited

namespace Json

/-- The value of a member; of two members of one name the later counts. -/
def member? (name : String) : Json → Option Json
  | object members => Entries.find? name members.reverse
  | _ => none

mutual

/-- The same value with the members of every object in ascending order of names
and none given twice. -/
def canonical : Json → Json
  | array items => array (canonicalItems items)
  | object members => object (canonicalMembers [] members)
  | other => other

/-- `canonical` on every item. -/
def canonicalItems : List Json → List Json
  | [] => []
  | item :: items => canonical item :: canonicalItems items

/-- Adds the canonical members to those that are sorted already. -/
def canonicalMembers (sorted : Entries Json) : List (String × Json) → Entries Json
  | [] => sorted
  | (name, value) :: members =>
    canonicalMembers (Entries.insert name (canonical value) sorted) members

end

end Json
end ReportQuery
