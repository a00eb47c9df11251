import TaskMill.Text.Digits
/-!
# TaskMill — JSON values and their text

A JSON value keeps the members of an object in the order in which they are
written. `compact` writes a value without any blank, `pretty` with one member
or element per line, two blanks deeper than what holds it. Both escape quote,
backslash and the controls below `U+0020`, and nothing else, so the text of a
value never holds a line break of its own.
-/

namespace TaskMill

/-- A JSON value. -/
inductive Json where
  | null
  | bool (value : Bool)
  | int (value : Int)
  /-- A number that is no integer in plain digits, as it is written. -/
  | real (digits : String)
  | str (value : String)
  | arr (items : List Json)
  | obj (members : List (String × Json))
  deriving Inhabited

namespace Json

-- ---------------------------------------------------------------------------
-- Strings
-- ---------------------------------------------------------------------------

/-- How one character is written inside a string. -/
def escapeChar (c : Char) : List Char :=
  if c = '"' then ['\\', '"']
  else if c = '\\' then ['\\', '\\']
  else if c = '\n' then ['\\', 'n']
  else if c = '\r' then ['\\', 'r']
  else if c = '\t' then ['\\', 't']
  else if c = '\x08' then ['\\', 'b']
  else if c = '\x0c' then ['\\', 'f']
  else if c.toNat < 0x20 then ['\\', 'u'] ++ Text.hexPadded 4 c.toNat
  else [c]

/-- A string with its quotes. -/
def stringText (s : String) : List Char :=
  '"' :: s.toList.flatMap escapeChar ++ ['"']

/-- The text of a value that holds no other values; nothing for the rest. -/
def scalarText : Json → List Char
  | null => "null".toList
  | bool true => "true".toList
  | bool false => "false".toList
  | int n => (toString n).toList
  | real digits => digits.toList
  | str s => stringText s
  | arr _ => []
  | obj _ => []

-- ---------------------------------------------------------------------------
-- One line
-- ---------------------------------------------------------------------------

mutual

/-- The text of a value on one line, without blanks. -/
def compactText : Json → List Char
  | arr items => '[' :: compactItems items ++ [']']
  | obj members => '\x7b' :: compactMembers members ++ ['\x7d']
  | scalar => scalar.scalarText

/-- The elements of an array, separated by commas. -/
def compactItems : List Json → List Char
  | [] => []
  | [item] => compactText item
  | item :: rest => compactText item ++ ',' :: compactItems rest

/-- The members of an object, separated by commas. -/
def compactMembers : List (String × Json) → List Char
  | [] => []
  | [(key, value)] => stringText key ++ ':' :: compactText value
  | (key, value) :: rest =>
    stringText key ++ ':' :: compactText value ++ ',' :: compactMembers rest

end

/-- The text of a value on one line, without blanks. -/
def compact (j : Json) : String :=
  String.ofList j.compactText

-- ---------------------------------------------------------------------------
-- Several lines
-- ---------------------------------------------------------------------------

/-- A line break and the blanks that begin a line of the given depth. -/
def newline (depth : Nat) : List Char :=
  '\n' :: List.replicate (2 * depth) ' '

mutual

/-- The text of a value that stands at the given depth. -/
def prettyText (depth : Nat) : Json → List Char
  | arr [] => ['[', ']']
  | obj [] => ['\x7b', '\x7d']
  | arr items => '[' :: prettyItems (depth + 1) items ++ newline depth ++ [']']
  | obj members => '\x7b' :: prettyMembers (depth + 1) members ++ newline depth ++ ['\x7d']
  | scalar => scalar.scalarText

/-- The elements of an array, each on its line. -/
def prettyItems (depth : Nat) : List Json → List Char
  | [] => []
  | [item] => newline depth ++ prettyText depth item
  | item :: rest => newline depth ++ prettyText depth item ++ ',' :: prettyItems depth rest

/-- The members of an object, each on its line. -/
def prettyMembers (depth : Nat) : List (String × Json) → List Char
  | [] => []
  | [(key, value)] => newline depth ++ stringText key ++ ':' :: ' ' :: prettyText depth value
  | (key, value) :: rest =>
    newline depth ++ stringText key ++ ':' :: ' ' :: prettyText depth value
      ++ ',' :: prettyMembers depth rest

end

/-- The text of a value with one member or element per line. -/
def pretty (j : Json) : String :=
  String.ofList (j.prettyText 0)

-- ---------------------------------------------------------------------------
-- Looking into a value
-- ---------------------------------------------------------------------------

/-- A number, as a value. -/
def nat (n : Nat) : Json := int n

/-- A text that may be absent, as a value. -/
def optStr : Option String → Json
  | none => null
  | some s => str s

/-- A list of texts, as a value. -/
def strs (texts : List String) : Json := arr (texts.map str)

/-- The last member of an object with a key; nothing for other values. -/
def get? : Json → String → Option Json
  | obj members, key => members.reverse.lookup key
  | _, _ => none

end Json

end TaskMill
