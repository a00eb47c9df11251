import TaskMill.Decimal.Binary
/-!
# TaskMill — TOML values

What a TOML document says: a table of values. The order of a table's entries is
the order in which they were written; it means nothing.
-/

namespace TaskMill

/-- A TOML value. -/
inductive Toml where
  | string (value : String)
  /-- A whole number; nothing if what is written has no value. -/
  | integer (value : Option Int)
  /-- A fraction; nothing if it is too large to be held. -/
  | float (value : Option Binary)
  | boolean (value : Bool)
  /-- A date, a time, or both, as it is written. -/
  | moment (written : String)
  | array (items : List Toml)
  | table (entries : List (String × Toml))
  deriving Inhabited

end TaskMill
