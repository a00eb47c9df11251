import TaskMill.Toml.Draft
import TaskMill.Toml.Quotation
import TaskMill.Toml.Scalar
/-!
# TaskMill — reading TOML documents

The table that a document denotes. First the whole document is laid out, then
its statements are read one after the other: a header says which table the keys
below it belong to. This is version 1.1 of the format: an inline table may
spread over lines and end in a comma, `\e` and `\x` are escapes, and the
seconds of a time may be left out.
-/

namespace TaskMill.Toml

/-- Why a text denotes no table. -/
inductive Flaw where
  | malformed
  /-- A key has more parts than tables can be nested deep. -/
  | deepKey
  deriving DecidableEq, Inhabited

/-- What is there, or else the text is malformed. -/
def wellFormed {α : Type} : Option α → Except Flaw α
  | some a => .ok a
  | none => .error .malformed

-- ---------------------------------------------------------------------------
-- Keys and values
-- ---------------------------------------------------------------------------

/-- Whether a character can stand in a key without quotes. -/
def isBareChar (c : Char) : Bool :=
  c.isAlphanum || c = '_' || c = '-'

/-- The part of a key that a lexeme denotes. -/
def Lexeme.key? (l : Lexeme) : Option String :=
  match l.quotes with
  | some quotes => if quotes.tripled then none else quotes.string? l.text
  | none => if !l.text.isEmpty ∧ l.text.all isBareChar then some (String.ofList l.text) else none

/-- The scalar that a lexeme denotes. -/
def Lexeme.scalar? (l : Lexeme) : Option Toml :=
  match l.quotes with
  | some quotes => (quotes.string? l.text).map Toml.string
  | none => word? l.text

/-- The parts of a key: those that lead to the last one, and the last one. -/
def readKey (key : WrittenKey) : Except Flaw (List String × String) := do
  let parts ← wellFormed (key.mapM Lexeme.key?)
  if Scan.depthLimit < parts.length then throw .deepKey
  return (parts.dropLast, parts.getLast?.getD "")

mutual

/-- The value that a layout denotes. -/
def Layout.read : Layout → Except Flaw Toml
  | .scalar lexeme => wellFormed lexeme.scalar?
  | .array items => (readItems items).map Toml.array
  | .table entries => (readEntries entries []).map fun read => .table (closeEntries read)

/-- The values that layouts denote. -/
def readItems : List Layout → Except Flaw (List Toml)
  | [] => .ok []
  | item :: rest => do
    let value ← item.read
    return value :: (← readItems rest)

/-- Adds the entries of an inline table to those read before. -/
def readEntries : List (WrittenKey × Layout) → Entries → Except Flaw Entries
  | [], read => .ok read
  | (key, layout) :: rest, read => do
    let (path, key) ← readKey key
    let value ← layout.read
    readEntries rest (← wellFormed (read.assignAt? path key value .headed))

end

-- ---------------------------------------------------------------------------
-- Documents
-- ---------------------------------------------------------------------------

/-- A document as far as it has been read. -/
structure Progress where
  root : Entries
  /-- The path of the table that the next key belongs to. -/
  header : List String
  /-- Whether this table is an element that has no place among the others. It
  is read by itself, and refused when the next header or the end comes. -/
  isMisplaced : Bool

/-- Nothing has been read. -/
def Progress.start : Progress := ⟨[], [], false⟩

/-- The table read so far has ended. -/
def Progress.endTable (p : Progress) : Except Flaw Unit :=
  if p.isMisplaced then .error .malformed else .ok ()

/-- Reads a statement. -/
def Statement.read (p : Progress) : Statement → Except Flaw Progress
  | .header isElement key => do
    p.endTable
    let (path, key) ← readKey key
    if isElement then
      match p.root.change? false (Entries.headElement? key) .headed path with
      | some root => return ⟨root, path ++ [key], false⟩
      | none => return ⟨[], [], true⟩
    else
      let root ← wellFormed (p.root.change? false (Entries.head? key) .headed path)
      return ⟨root, path ++ [key], false⟩
  | .entry key layout => do
    let (path, key) ← readKey key
    let value ← layout.read
    let assign (origin : Origin) (entries : Entries) := entries.assignAt? path key value origin
    let root ← wellFormed (p.root.change? false assign .headed p.header)
    return { p with root }

/-- The table that a text denotes. One byte order mark at its beginning is
passed over. -/
def parse (s : String) : Except Flaw Toml := do
  let cs := s.toList
  let statements ← wellFormed (statements? (if cs.head? = some '\uFEFF' then cs.tail else cs))
  let read ← statements.foldlM Statement.read .start
  read.endTable
  return .table (closeEntries read.root)

end TaskMill.Toml
