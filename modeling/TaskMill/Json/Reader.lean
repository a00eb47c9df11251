import TaskMill.Json.Basic
/-!
# TaskMill — reading JSON

A text is read in two passes. The first cuts it into **tokens**: brackets,
separators, strings and the other scalars, with the blanks between them
dropped. The second takes the tokens one at a time; its state holds the arrays
and objects that are open, innermost first, and what may come next.
-/

namespace TaskMill.Json

/-- The pieces that a JSON text is made of. -/
inductive Token where
  | openArr
  | closeArr
  | openObj
  | closeObj
  | comma
  | colon
  | str (value : String)
  /-- A scalar other than a string. -/
  | scalar (value : Json)

-- ---------------------------------------------------------------------------
-- Strings
-- ---------------------------------------------------------------------------

/-- The character that a letter after a backslash stands for. -/
def letterEscape? : Char → Option Char
  | '"' => some '"'
  | '\\' => some '\\'
  | '/' => some '/'
  | 'b' => some '\x08'
  | 'f' => some '\x0c'
  | 'n' => some '\n'
  | 'r' => some '\r'
  | 't' => some '\t'
  | _ => none

/-- The number that four hexadecimal digits denote. -/
def hex4? (a b c d : Char) : Option Nat :=
  Text.readDigits Text.hexDigit? 16 [a, b, c, d]

/-- What has been read of a string, in reverse, and a high surrogate whose
other half is still to come. -/
structure StringState where
  chars : List Char
  high : Option Nat

/-- A code unit given by number, added to what has been read. -/
def StringState.addUnit? (st : StringState) (unit : Nat) : Option StringState :=
  match st.high with
  | some high =>
    if 0xDC00 ≤ unit ∧ unit < 0xE000 then
      some ⟨Char.ofNat (0x10000 + (high - 0xD800) * 0x400 + (unit - 0xDC00)) :: st.chars, none⟩
    else none
  | none =>
    if 0xD800 ≤ unit ∧ unit < 0xDC00 then some ⟨st.chars, some unit⟩
    else if 0xDC00 ≤ unit ∧ unit < 0xE000 then none
    else some ⟨Char.ofNat unit :: st.chars, none⟩

/-- A character as such, added to what has been read. -/
def StringState.addChar? (st : StringState) (c : Char) : Option StringState :=
  if st.high.isSome then none else some ⟨c :: st.chars, none⟩

/-- Reads the rest of a string up to its closing quote: the string, and what
follows it. -/
def readString (st : StringState) : List Char → Option (String × List Char)
  | [] => none
  | '"' :: rest => if st.high.isSome then none else some (String.ofList st.chars.reverse, rest)
  | '\\' :: 'u' :: a :: b :: c :: d :: rest =>
    match (hex4? a b c d).bind st.addUnit? with
    | none => none
    | some st => readString st rest
  | '\\' :: letter :: rest =>
    match (letterEscape? letter).bind st.addChar? with
    | none => none
    | some st => readString st rest
  | c :: rest =>
    if c.toNat < 0x20 ∨ c = '\\' then none
    else
      match st.addChar? c with
      | none => none
      | some st => readString st rest

/-- What is left after a string is shorter than what it was read from. -/
theorem readString_length {st : StringState} {cs rest : List Char} {s : String}
    (h : readString st cs = some (s, rest)) : rest.length < cs.length := by
  fun_induction readString st cs with
  | case1 => simp at h
  | case2 => simp at h
  | case3 => simp at h; simp [h]
  | case4 => simp at h
  | case5 st a b c d rest' st' hState ih => have := ih h; simp; omega
  | case6 => simp at h
  | case7 st letter rest' _ st' hState ih => have := ih h; simp; omega
  | case8 => simp at h
  | case9 => simp at h
  | case10 st c rest' _ _ _ hc st' hState ih => have := ih h; simp; omega

-- ---------------------------------------------------------------------------
-- Numbers and words
-- ---------------------------------------------------------------------------

/-- Whether a character can stand in a number or word. -/
def isWordChar (c : Char) : Bool :=
  c.isAlphanum || c = '-' || c = '+' || c = '.'

/-- The digits before anything else, if there are any: they and what follows. -/
def digits? (cs : List Char) : Option (List Char × List Char) :=
  match cs.span Char.isDigit with
  | ([], _) => none
  | split => some split

/-- Whether a list of characters is a fraction, an exponent, both or neither. -/
def isFractionExponent (cs : List Char) : Bool :=
  let afterFraction := match cs with
    | '.' :: r => (digits? r).map Prod.snd
    | _ => some cs
  match afterFraction with
  | none => false
  | some [] => true
  | some (e :: r) =>
    (e = 'e' || e = 'E') &&
      match r with
      | '+' :: ds | '-' :: ds | ds => ((digits? ds).map Prod.snd).any List.isEmpty

/-- The scalar that a word denotes. A number without fraction and exponent is
an integer; only minus zero is kept as it is written. -/
def scalar? (word : List Char) : Option Json :=
  if word = "null".toList then some null
  else if word = "true".toList then some (bool true)
  else if word = "false".toList then some (bool false)
  else
    let (negative, body) := match word with
      | '-' :: r => (true, r)
      | r => (false, r)
    match digits? body with
    | none => none
    | some (whole, rest) =>
      if whole.length > 1 ∧ whole.head? = some '0' then none
      else if rest = [] ∧ ¬ (negative ∧ whole = ['0']) then
        (Text.readDecimal? whole).map fun n => int (if negative then -(n : Int) else n)
      else if isFractionExponent rest then some (real (String.ofList word))
      else none

-- ---------------------------------------------------------------------------
-- Tokens
-- ---------------------------------------------------------------------------

/-- The token that a character is by itself. -/
def mark? : Char → Option Token
  | '[' => some .openArr
  | ']' => some .closeArr
  | '\x7b' => some .openObj
  | '\x7d' => some .closeObj
  | ',' => some .comma
  | ':' => some .colon
  | _ => none

/-- Whether a character may stand between tokens. -/
def isGap (c : Char) : Bool :=
  c = ' ' || c = '\n' || c = '\r' || c = '\t'

/-- Cuts a text into tokens. -/
def tokens? (cs : List Char) : Option (List Token) :=
  match cs with
  | [] => some []
  | c :: rest =>
    if isGap c then tokens? rest
    else match mark? c with
      | some token => (tokens? rest).map (token :: ·)
      | none =>
        if c = '"' then
          match _h : readString ⟨[], none⟩ rest with
          | none => none
          | some (s, more) => (tokens? more).map (.str s :: ·)
        else if isWordChar c then
          match scalar? (c :: rest.takeWhile isWordChar) with
          | none => none
          | some v => (tokens? (rest.dropWhile isWordChar)).map (.scalar v :: ·)
        else none
termination_by cs.length
decreasing_by
  · simp
  · simp
  · have := readString_length _h; simp; omega
  · have := (List.dropWhile_sublist isWordChar (l := rest)).length_le; simp; omega

-- ---------------------------------------------------------------------------
-- Values
-- ---------------------------------------------------------------------------

/-- A container that is open, with what it holds so far, last one first. -/
inductive Frame where
  | arr (items : List Json)
  | obj (members : List (String × Json))
  /-- An object whose member with this key has its value still to come. -/
  | keyed (members : List (String × Json)) (key : String)

/-- What may come next, and the containers open there. -/
inductive Expecting where
  | value (open_ : List Frame)
  /-- The first element of an array, or its end. -/
  | firstItem (open_ : List Frame)
  /-- The first key of an object, or its end. -/
  | firstKey (members : List Frame)
  | key (open_ : List Frame)
  | colon (name : String) (open_ : List Frame)
  /-- A separator, or the end of the innermost container. -/
  | more (open_ : List Frame)
  | nothing (value : Json)

/-- A complete value, given to the innermost open container. -/
def settle (v : Json) : List Frame → Option Expecting
  | [] => some (.nothing v)
  | .arr items :: rest => some (.more (.arr (v :: items) :: rest))
  | .keyed members key :: rest => some (.more (.obj ((key, v) :: members) :: rest))
  | .obj _ :: _ => none

/-- Takes a token that begins a value. -/
def beginValue (open_ : List Frame) : Token → Option Expecting
  | .openArr => some (.firstItem (.arr [] :: open_))
  | .openObj => some (.firstKey (.obj [] :: open_))
  | .str s => settle (str s) open_
  | .scalar v => settle v open_
  | _ => none

/-- Closes the innermost container. -/
def close : List Frame → Token → Option Expecting
  | .arr items :: rest, .closeArr => settle (arr items.reverse) rest
  | .obj members :: rest, .closeObj => settle (obj members.reverse) rest
  | _, _ => none

/-- Takes one token. -/
def take : Expecting → Token → Option Expecting
  | .value open_, token => beginValue open_ token
  | .firstItem open_, .closeArr => close open_ .closeArr
  | .firstItem open_, token => beginValue open_ token
  | .firstKey open_, .closeObj => close open_ .closeObj
  | .firstKey open_, .str s => some (.colon s open_)
  | .key open_, .str s => some (.colon s open_)
  | .colon name (.obj members :: rest), .colon => some (.value (.keyed members name :: rest))
  | .more (.arr items :: rest), .comma => some (.value (.arr items :: rest))
  | .more (.obj members :: rest), .comma => some (.key (.obj members :: rest))
  | .more open_, token => close open_ token
  | _, _ => none

/-- The value that a list of tokens denotes. -/
def ofTokens? (tokens : List Token) : Option Json :=
  match tokens.foldlM take (.value []) with
  | some (.nothing v) => some v
  | _ => none

/-- The value that a text denotes. -/
def parse? (s : String) : Option Json :=
  (tokens? s.toList).bind ofTokens?

end TaskMill.Json
