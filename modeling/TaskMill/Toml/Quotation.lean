import TaskMill.Text.Digits
import TaskMill.Toml.Layout
/-!
# TaskMill — strings in TOML

Strings stand between double quotes, where a backslash begins an escape, or
between single quotes, where nothing is special. Three quotes instead of one
allow line breaks; a break just after them is dropped. A backslash at the end
of a line drops the break and all blanks and breaks that follow.
-/

namespace TaskMill.Toml

/-- Where a string with escapes is being read. -/
inductive Reading where
  | plain
  /-- Just after a backslash. -/
  | escape
  /-- In a code point of which `left + 1` digits are still to come. -/
  | code (left value : Nat)
  /-- Between a backslash and the end of its line. -/
  | lineEnd
  /-- In the blanks and breaks that a backslash drops. -/
  | dropping

/-- The character that a letter after a backslash stands for. -/
def letterEscape? : Char → Option Char
  | 'b' => some '\x08'
  | 't' => some '\t'
  | 'n' => some '\n'
  | 'f' => some '\x0c'
  | 'r' => some '\r'
  | 'e' => some '\x1b'
  | '"' => some '"'
  | '\\' => some '\\'
  | _ => none

/-- How many digits the code point after a backslash and a letter has. -/
def codeDigits? : Char → Option Nat
  | 'x' => some 2
  | 'u' => some 4
  | 'U' => some 8
  | _ => none

/-- The character with a code point. -/
def scalarValue? (n : Nat) : Option Char :=
  if n.isValidChar then some (Char.ofNat n) else none

/-- Whether a character, with `rest` after it, may stand for itself: a plain
one, or part of a line break where there may be line breaks. -/
def mayStand (tripled : Bool) (c : Char) (rest : List Char) : Bool :=
  isPlain c || (tripled && (c = '\n' || (c = '\r' && rest.head? = some '\n')))

/-- Reads what stands between double quotes, where `read` holds in reverse what
has been read so far. -/
def unescape (tripled : Bool) (mode : Reading) (read : List Char) :
    List Char → Option (List Char)
  | [] =>
    match mode with
    | .plain | .dropping => some read.reverse
    | _ => none
  | c :: rest =>
    let isBreaking := c = ' ' ∨ c = '\t' ∨ (c = '\r' ∧ rest.head? = some '\n')
    match mode with
    | .plain =>
      if c = '\\' then unescape tripled .escape read rest
      else if mayStand tripled c rest then unescape tripled .plain (c :: read) rest
      else none
    | .escape =>
      match letterEscape? c, codeDigits? c with
      | some d, _ => unescape tripled .plain (d :: read) rest
      | none, some digits => unescape tripled (.code (digits - 1) 0) read rest
      | none, none =>
        if !tripled then none
        else if isBreaking then unescape tripled .lineEnd read rest
        else if c = '\n' then unescape tripled .dropping read rest
        else none
    | .code left value =>
      match Text.hexDigit? c with
      | none => none
      | some digit =>
        let value := value * 16 + digit
        match left with
        | left + 1 => unescape tripled (.code left value) read rest
        | 0 =>
          match scalarValue? value with
          | none => none
          | some d => unescape tripled .plain (d :: read) rest
    | .lineEnd =>
      if isBreaking then unescape tripled .lineEnd read rest
      else if c = '\n' then unescape tripled .dropping read rest
      else none
    | .dropping =>
      if isBreaking ∨ c = '\n' then unescape tripled .dropping read rest
      else if c = '\\' then unescape tripled .escape read rest
      else if mayStand tripled c rest then unescape tripled .plain (c :: read) rest
      else none

/-- Whether all that stands between single quotes may stand there. -/
def isLiteral (tripled : Bool) : List Char → Bool
  | [] => true
  | c :: rest => mayStand tripled c rest && isLiteral tripled rest

/-- A text without the line break that it begins with. -/
def dropBreak : List Char → List Char
  | '\n' :: rest => rest
  | '\r' :: '\n' :: rest => rest
  | cs => cs

/-- What stands between the quotes of a text, if the closing ones are there. -/
def Quotes.inside? (q : Quotes) (text : List Char) : Option (List Char) :=
  let body := text.drop q.count
  let length := body.length - q.count
  if q.count ≤ body.length ∧ body.drop length = List.replicate q.count q.mark then
    some (body.take length)
  else none

/-- The string that a text in quotes denotes. -/
def Quotes.string? (q : Quotes) (text : List Char) : Option String := do
  let inside ← q.inside? text
  let content := if q.tripled then dropBreak inside else inside
  if q.double then (unescape q.tripled .plain [] content).map String.ofList
  else if isLiteral q.tripled content then some (String.ofList content)
  else none

end TaskMill.Toml
