/-!
# Values of settings files

A settings file is a table of values by name. A date, a time of day or both are held as
their text.
-/

namespace ReportQuery

/-- A value of a settings file. -/
inductive Toml where
  | text (s : String)
  | integer (n : Int)
  | double (x : Float)
  | bool (b : Bool)
  /-- A date, a time of day or both. -/
  | moment (text : String)
  | array (items : List Toml)
  | table (members : List (String × Toml))
deriving Inhabited

end ReportQuery
