/-!
# TaskMill — TOML tokens

A text cut into tokens. Every text can be cut: what is wrong inside a token is
found when the token is read. A string token runs to its closing quotes, or to
the end of the line or text if they are missing. Whatever is nothing else is
part of a word.
-/

namespace TaskMill.Toml

/-- The quotes of a string. -/
structure Quotes where
  /-- Whether they are double quotes, between which a backslash escapes. -/
  double : Bool
  /-- Whether there are three on each side in place of one. -/
  tripled : Bool
  deriving DecidableEq, Inhabited

/-- What a token is. -/
inductive TokenKind where
  | dot
  | equals
  | comma
  | openBracket
  | closeBracket
  | openBrace
  | closeBrace
  /-- Spaces and tabs. -/
  | blank
  | comment
  | lineBreak
  | string (quotes : Quotes)
  | word
  deriving DecidableEq, Inhabited

/-- A piece of a text. -/
structure Token where
  kind : TokenKind
  text : List Char
  deriving DecidableEq, Inhabited

/-- The quote that a string is put in. -/
def Quotes.mark (q : Quotes) : Char := if q.double then '"' else '\''

/-- How many quotes stand on each side. -/
def Quotes.count (q : Quotes) : Nat := if q.tripled then 3 else 1

namespace Token

-- ---------------------------------------------------------------------------
-- How far a token reaches
-- ---------------------------------------------------------------------------

/-- How many characters of a string on one line follow its opening quote:
`read`, and those up to the closing quote or the end of the line. `escaped`
tells that a backslash stands before them. -/
def lineExtent (q : Quotes) (escaped : Bool) (read : Nat) : List Char → Nat
  | [] => read
  | c :: rest =>
    if escaped ∧ (c = '\\' ∨ c = q.mark) then lineExtent q false (read + 1) rest
    else if c = q.mark then read + 1
    else if c = '\n' then read
    else lineExtent q (q.double && c = '\\') (read + 1) rest

/-- How many characters of a string in tripled quotes follow the opening ones:
`read`, and those up to the closing quotes, before which two more may stand. -/
def tripledExtent (q : Quotes) (escaped : Bool) (read : Nat) : List Char → Nat
  | [] => read
  | c :: rest =>
    if escaped ∧ (c = '\\' ∨ c = q.mark) then tripledExtent q false (read + 1) rest
    else if c = q.mark ∧ rest.take 2 = [q.mark, q.mark] then
      read + 3 + (((rest.drop 2).take 2).takeWhile (· = q.mark)).length
    else tripledExtent q (q.double && c = '\\') (read + 1) rest

/-- What a string is, and how far it reaches beyond its first quote. -/
def stringExtent (double : Bool) (rest : List Char) : TokenKind × Nat :=
  let tripled : Quotes := ⟨double, true⟩
  let single : Quotes := ⟨double, false⟩
  if rest.take 2 = [single.mark, single.mark] then
    (.string tripled, tripledExtent tripled false 2 (rest.drop 2))
  else (.string single, lineExtent single false 0 rest)

/-- Whether a character is a space or a tab. -/
def isBlank (c : Char) : Bool := c = ' ' || c = '\t'

/-- Whether a word ends before a character. -/
def endsWord (c : Char) : Bool :=
  isBlank c || c = '\n' || c = '\r' || c = '#' || c = '.' || c = '=' || c = ',' || c = '['
    || c = ']' || c = '\x7b' || c = '\x7d'

/-- What the token is that begins with `c`, and how many characters of what
follows belong to it. -/
def extent (c : Char) (rest : List Char) : TokenKind × Nat :=
  match c with
  | '.' => (.dot, 0)
  | '=' => (.equals, 0)
  | ',' => (.comma, 0)
  | '[' => (.openBracket, 0)
  | ']' => (.closeBracket, 0)
  | '\x7b' => (.openBrace, 0)
  | '\x7d' => (.closeBrace, 0)
  | '\n' => (.lineBreak, 0)
  | '\r' => (.lineBreak, if rest.head? = some '\n' then 1 else 0)
  | '#' => (.comment, (rest.takeWhile fun d => d ≠ '\n' && d ≠ '\r').length)
  | '"' => stringExtent true rest
  | '\'' => stringExtent false rest
  | c =>
    if isBlank c then (.blank, (rest.takeWhile isBlank).length)
    else (.word, (rest.takeWhile fun d => !endsWord d).length)

-- ---------------------------------------------------------------------------
-- Cutting
-- ---------------------------------------------------------------------------

/-- Cuts a text into tokens. -/
def cut : List Char → List Token
  | [] => []
  | c :: rest =>
    let (kind, length) := extent c rest
    ⟨kind, c :: rest.take length⟩ :: cut (rest.drop length)
termination_by cs => cs.length
decreasing_by
  simp only [List.length_drop, List.length_cons]
  omega

/-- No character is lost by cutting, and none is added. -/
theorem flatMap_text_cut (cs : List Char) : (cut cs).flatMap Token.text = cs := by
  fun_induction cut cs with
  | case1 => rfl
  | case2 c rest kind length _ ih =>
    rw [List.flatMap_cons, ih]
    show c :: (rest.take length ++ rest.drop length) = c :: rest
    rw [List.take_append_drop]

end Token

end TaskMill.Toml
