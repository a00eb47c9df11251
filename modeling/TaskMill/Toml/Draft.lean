import TaskMill.Toml.Basic
/-!
# TaskMill — tables under construction

While a document is read, each table remembers how it came to be, because that
decides how it may still be extended:

* a table *headed* by its name between brackets is defined once;
* a table *implied* by the header of a table inside it may be headed later;
* a table made by a *dotted* key is extended by dotted keys of the same
  section only, and by headers of tables inside it;
* an inline table, like every other written value, is *closed*.

An array of tables stands for its last element wherever a table inside it is
meant.
-/

namespace TaskMill.Toml

/-- How a table came to be. -/
inductive Origin where
  | headed
  | implied
  | dotted
  deriving DecidableEq, Inhabited

/-- A value under construction. -/
inductive Draft where
  | closed (value : Toml)
  | open_ (origin : Origin) (entries : List (String × Draft))
  /-- An array of headed tables, last one first. -/
  | openArray (tables : List (List (String × Draft)))
  deriving Inhabited

/-- The entries of a table under construction. -/
abbrev Entries : Type := List (String × Draft)

namespace Entries

/-- The entries with the value of a key replaced. -/
def replace (entries : Entries) (key : String) (value : Draft) : Entries :=
  entries.map fun (k, v) => if k = key then (k, value) else (k, v)

/-- The entries with one more at the end; its key must be new. -/
def insert? (entries : Entries) (key : String) (value : Draft) : Option Entries :=
  if (entries.lookup key).isSome then none else some (entries ++ [(key, value)])

/-- Changes the table at `path`, given its origin and its entries. Tables that
are missing on the way are made: by a dotted key if `dotted`, or else implied.
A dotted key does not lead into a headed table. -/
def change? (dotted : Bool) (f : Origin → Entries → Option Entries) (origin : Origin) :
    List String → Entries → Option Entries
  | [], entries => f origin entries
  | key :: path, entries =>
    match entries.lookup key with
    | none => do
      let made := if dotted then Origin.dotted else .implied
      return entries ++ [(key, .open_ made (← change? dotted f made path []))]
    | some (.open_ inner held) =>
      if dotted ∧ inner = .headed then none
      else do return entries.replace key (.open_ inner (← change? dotted f inner path held))
    | some (.openArray (last :: before)) => do
      return entries.replace key (.openArray ((← change? dotted f .headed path last) :: before))
    | some _ => none

/-- Heads the table `key`: it must be new, or implied. -/
def head? (key : String) (_ : Origin) (entries : Entries) : Option Entries :=
  match entries.lookup key with
  | none => some (entries ++ [(key, .open_ .headed [])])
  | some (.open_ .implied held) => some (entries.replace key (.open_ .headed held))
  | some _ => none

/-- Adds a table to the array `key`. -/
def headElement? (key : String) (_ : Origin) (entries : Entries) : Option Entries :=
  match entries.lookup key with
  | none => some (entries ++ [(key, .openArray [[]])])
  | some (.openArray tables) => some (entries.replace key (.openArray ([] :: tables)))
  | some _ => none

/-- Gives `key` a value. Where a dotted key led to the table, the table must
have come to be by dotted keys alone. -/
def assign? (dotted : Bool) (key : String) (value : Toml) (origin : Origin) (entries : Entries) :
    Option Entries :=
  if dotted ∧ origin ≠ .dotted then none else entries.insert? key (.closed value)

/-- Gives a dotted key, which ends in `key`, a value. -/
def assignAt? (path : List String) (key : String) (value : Toml) (origin : Origin)
    (entries : Entries) : Option Entries :=
  let dotted := !path.isEmpty
  entries.change? dotted (assign? dotted key value) origin path

end Entries

mutual

/-- The value that a draft has become. -/
def Draft.close : Draft → Toml
  | .closed value => value
  | .open_ _ entries => .table (closeEntries entries)
  | .openArray tables => .array (closeTables tables).reverse

/-- The entries that drafts have become. -/
def closeEntries : List (String × Draft) → List (String × Toml)
  | [] => []
  | (key, draft) :: rest => (key, draft.close) :: closeEntries rest

/-- The tables that drafts have become. -/
def closeTables : List (List (String × Draft)) → List Toml
  | [] => []
  | entries :: rest => .table (closeEntries entries) :: closeTables rest

end

end TaskMill.Toml
