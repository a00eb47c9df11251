import TaskMill.Toml.Scan
/-!
# TaskMill — the layout of TOML documents

A document as its tokens lay it out: a sequence of statements, each a header or
a key with a value. Keys and scalars stay as they are written; a part of a key
or a value that is missing is laid out as an empty word, and a header whose key
breaks off is laid out as far as it goes. Arrays and inline tables may spread
over lines and end in a comma, and may be nested eighty deep.
-/

namespace TaskMill.Toml

/-- A part of a key, or a scalar, as it is written. -/
structure Lexeme where
  /-- The quotes around it; nothing for a word. -/
  quotes : Option Quotes
  text : List Char
  deriving DecidableEq, Inhabited

/-- What stands where nothing is written. -/
def Lexeme.missing : Lexeme := ⟨none, []⟩

/-- A key with dots: all its parts. -/
abbrev WrittenKey : Type := List Lexeme

/-- A value as it is written. -/
inductive Layout where
  | scalar (lexeme : Lexeme)
  | array (items : List Layout)
  | table (entries : List (WrittenKey × Layout))
  deriving Inhabited

/-- A statement as it is written. -/
inductive Statement where
  /-- The header of a table, or of an element of an array of tables. -/
  | header (isElement : Bool) (key : WrittenKey)
  | entry (key : WrittenKey) (value : Layout)
  deriving Inhabited

namespace Scan

/-- Reads a part of a key. -/
def keyPart : Scan Lexeme := do
  match ← get with
  | ⟨.string quotes, text⟩ :: rest =>
    set rest
    return ⟨some quotes, text⟩
  | ⟨.word, text⟩ :: rest =>
    set rest
    return ⟨none, text⟩
  | _ => return .missing

/-- Reads a key and the blanks around its parts. -/
def key : Scan WrittenKey := do
  blanks
  let first ← keyPart
  blanks
  repeating (fun parts => do
    if ← accept .dot then
      blanks
      let next ← keyPart
      blanks
      return .inl (next :: parts)
    else return .inr parts.reverse) [first]

/-- Reads the rest of a scalar without quotes. Dots belong to it, and words
after a blank, since a date and a time may be parted by one. -/
def wordRest (text : List Char) : Scan (List Char) :=
  repeating (fun text => do
    match ← get with
    | ⟨.dot, more⟩ :: rest | ⟨.word, more⟩ :: rest =>
      set rest
      return .inl (text ++ more)
    | ⟨.blank, blank⟩ :: ⟨.word, more⟩ :: rest =>
      set rest
      return .inl (text ++ blank ++ more)
    | _ => return .inr text) text

/-- Reads a scalar, or nothing where the line ends. -/
def scalar : Scan Layout := do
  match ← get with
  | ⟨.string quotes, text⟩ :: rest =>
    set rest
    return .scalar ⟨some quotes, text⟩
  | ⟨.word, text⟩ :: rest | ⟨.dot, text⟩ :: rest =>
    set rest
    return .scalar ⟨none, ← wordRest text⟩
  | [] | ⟨.comment, _⟩ :: _ | ⟨.lineBreak, _⟩ :: _ => return .scalar .missing
  | _ => failure

/-- Reads the rest of an array whose elements `value` reads. -/
def arrayRest (value : Scan Layout) : Scan Layout :=
  repeating (fun items => do
    gap
    if ← accept .closeBracket then return .inr (.array items.reverse)
    let item ← value
    gap
    if ← accept .comma then return .inl (item :: items)
    expect .closeBracket
    return .inr (.array (item :: items).reverse)) []

/-- Reads what follows a key in an inline table, whose value `value` reads; the
table may end before it. -/
def tableItem (value : Scan Layout) : Scan Layout := do
  gap
  if (← peek) = some .closeBrace then return .scalar .missing
  expect .equals
  gap
  if (← peek) = some .closeBrace then return .scalar .missing
  value

/-- Reads the rest of an inline table whose values `value` reads. -/
def tableRest (value : Scan Layout) : Scan Layout :=
  repeating (fun entries => do
    gap
    if ← accept .closeBrace then return .inr (.table entries.reverse)
    let key ← key
    let item ← tableItem value
    gap
    if ← accept .comma then return .inl ((key, item) :: entries)
    expect .closeBrace
    return .inr (.table ((key, item) :: entries).reverse)) []

/-- Reads a value that holds arrays and inline tables nested at most `depth`
deep. -/
def value : Nat → Scan Layout
  | 0 => scalar
  | depth + 1 => do
    if ← accept .openBracket then arrayRest (value depth)
    else if ← accept .openBrace then tableRest (value depth)
    else scalar

/-- How deep arrays and inline tables may be nested. -/
def depthLimit : Nat := 80

/-- Passes over what is left of a line but for its comment. -/
def skipLine : Scan Unit :=
  modify fun tokens => tokens.dropWhile fun token =>
    token.kind ≠ .comment && token.kind ≠ .lineBreak

/-- Reads the rest of a header. The brackets must be closed unless the key
breaks off, in which case the rest of the line counts for nothing. -/
def headerRest : Scan Statement := do
  let isElement ← accept .openBracket
  let key ← key
  if ← accept .closeBracket then
    if isElement then expect .closeBracket
  else if key.getLast? = some .missing then skipLine
  else failure
  return .header isElement key

/-- Reads a key and its value. -/
def entry : Scan Statement := do
  let key ← key
  expect .equals
  blanks
  return .entry key (← value depthLimit)

/-- Reads all statements. -/
def statements : Scan (List Statement) :=
  repeating (fun read => do
    gap
    if (← get).isEmpty then return .inr read.reverse
    let statement ← if ← accept .openBracket then headerRest else entry
    lineEnd
    return .inl (statement :: read)) []

end Scan

/-- The statements of a text, if it is laid out as a document. -/
def statements? (cs : List Char) : Option (List Statement) :=
  (Scan.statements.run (Token.cut cs)).map Prod.fst

end TaskMill.Toml
