import TaskMill.Event.Timestamp
import TaskMill.Text.Digits
import TaskMill.Toml.Basic
/-!
# TaskMill — numbers, dates and truth values in TOML

What a scalar without quotes denotes. Its first characters decide what it has
to be. Whole numbers are examined less closely than the rest: underscores must
stand between digits, of any base up to sixteen, but a word such as `1_000km`
passes as a whole number that turns out to have no value.
-/

namespace TaskMill.Toml

-- ---------------------------------------------------------------------------
-- Numbers
-- ---------------------------------------------------------------------------

/-- A word without its sign. -/
def unsigned : List Char → List Char
  | '+' :: body | '-' :: body => body
  | body => body

/-- Whether every underscore of a word stands between two digits. -/
def isGrouped (isDigit : Char → Bool) (word : List Char) : Bool :=
  word.head? ≠ some '_' && word.getLast? ≠ some '_' &&
    (word.zip word.tail).all fun (a, b) => (b ≠ '_' || isDigit a) && (a ≠ '_' || isDigit b)

/-- A word without its underscores. -/
def ungrouped (word : List Char) : List Char :=
  word.filter (· ≠ '_')

/-- A whole number in some base, whose value may be missing. -/
def based? (isDigit : Char → Bool) (base : Nat) (digits : List Char) : Option Toml :=
  if digits.all (fun c => isDigit c || c = '_') ∧ isGrouped isDigit digits then
    let digits := ungrouped digits
    some (.integer (if digits.isEmpty then none
      else (Text.readDigits Text.hexDigit? base digits).map Int.ofNat))
  else none

/-- Whether a character is a digit of base sixteen. -/
def isHexDigit (c : Char) : Bool := (Text.hexDigit? c).isSome

/-- Whether a character is a digit of base eight. -/
def isOctalDigit (c : Char) : Bool := '0' ≤ c && c ≤ '7'

/-- Whether a character is a digit of base two. -/
def isBinaryDigit (c : Char) : Bool := c = '0' || c = '1'

/-- A whole number in base ten, whose value may be missing. -/
def whole? (word : List Char) : Option Toml :=
  if isGrouped isHexDigit word then some (.integer (Text.readInteger? (ungrouped word)))
  else none

/-- Passes over digits and underscores, of which at least one must be a digit;
more than one may begin with a zero only if `padded`. -/
def afterDigits? (padded : Bool) (cs : List Char) : Option (List Char) :=
  let digits := cs.takeWhile fun c => c.isDigit || c = '_'
  let count := digits.countP Char.isDigit
  if count = 0 ∨ (!padded ∧ 1 < count ∧ digits.head? = some '0') then none
  else some (cs.drop digits.length)

/-- Whether a word without sign has the form of a number with a fraction, an
exponent, or both. -/
def isFraction (body : List Char) : Bool :=
  match do
    let cs ← afterDigits? false body
    let cs ← match cs with
      | '.' :: rest => afterDigits? true rest
      | _ => some cs
    match cs with
    | 'e' :: '+' :: rest | 'e' :: '-' :: rest | 'E' :: '+' :: rest | 'E' :: '-' :: rest
    | 'e' :: rest | 'E' :: rest => afterDigits? true rest
    | _ => some cs with
  | some [] => true
  | _ => false

/-- The parts of a word before and after the first character of a class. -/
def splitAt (p : Char → Bool) (cs : List Char) : List Char × List Char :=
  (cs.takeWhile fun c => !p c, (cs.dropWhile fun c => !p c).drop 1)

/-- The number that a word with a fraction or an exponent denotes. -/
def fraction? (word : List Char) : Option Toml :=
  let body := unsigned word
  if isFraction body ∧ isGrouped Char.isDigit word then
    let (mantissa, exponent) := splitAt (fun c => c = 'e' || c = 'E') (ungrouped body)
    let (before, after) := splitAt (· = '.') mantissa
    let power := (Text.readInteger? exponent).getD 0 - after.length
    (Text.readDecimal? (before ++ after)).map fun digits =>
      .float (Binary.ofDecimal? (word.head? = some '-') digits power)
  else none

-- ---------------------------------------------------------------------------
-- Dates and times
-- ---------------------------------------------------------------------------

/-- Reads exactly `width` digits. -/
def fixed? (width : Nat) (cs : List Char) : Option (Nat × List Char) :=
  if (cs.takeWhile Char.isDigit).length = width then
    (Text.readDecimal? (cs.take width)).map (·, cs.drop width)
  else none

/-- Reads one given character. -/
def char? (c : Char) : List Char → Option (List Char)
  | d :: rest => if d = c then some rest else none
  | [] => none

/-- What follows a date of the calendar. -/
def afterDate? (cs : List Char) : Option (List Char) := do
  let (year, cs) ← fixed? 4 cs
  let (month, cs) ← fixed? 2 (← char? '-' cs)
  let (day, cs) ← fixed? 2 (← char? '-' cs)
  if 1 ≤ month ∧ month ≤ 12 ∧ 1 ≤ day ∧ day ≤ daysInMonth year month then some cs else none

/-- What follows a time of day, whose seconds may be left out. -/
def afterTime? (cs : List Char) : Option (List Char) := do
  let (hour, cs) ← fixed? 2 cs
  let (minute, cs) ← fixed? 2 (← char? ':' cs)
  if 23 < hour ∨ 59 < minute then none
  match cs with
  | ':' :: rest =>
    let (second, cs) ← fixed? 2 rest
    if 60 < second then none
    match cs with
    | '.' :: rest => if (rest.takeWhile Char.isDigit).isEmpty then none
                     else some (rest.dropWhile Char.isDigit)
    | _ => some cs
  | _ => some cs

/-- Whether a list of characters is an offset from universal time, or
nothing. -/
def isOffset (cs : List Char) : Bool :=
  match cs with
  | [] => true
  | ['Z'] | ['z'] => true
  | sign :: rest =>
    (sign = '+' || sign = '-') &&
      match do
        let (hours, cs) ← fixed? 2 rest
        let (minutes, cs) ← fixed? 2 (← char? ':' cs)
        return (hours, minutes, cs) with
      | some (hours, minutes, []) => hours < 24 && minutes < 60
      | _ => false

/-- Whether a word is a date, a time, or a date and a time. -/
def isMoment (word : List Char) : Bool :=
  match afterDate? word with
  | some [] => true
  | some (c :: rest) =>
    (c = 'T' || c = 't' || c = ' ') && (afterTime? rest).any isOffset
  | none => (afterTime? word).any List.isEmpty

-- ---------------------------------------------------------------------------
-- Words
-- ---------------------------------------------------------------------------

/-- What a word denotes that begins with a digit after its sign. -/
def number? (word : List Char) : Option Toml :=
  let body := unsigned word
  let rest := body.dropWhile Char.isDigit
  match rest with
  | [] => if body.head? = some '0' then none else whole? word
  | '-' :: _ | ':' :: _ => if isMoment word then some (.moment (String.ofList word)) else none
  | c :: _ =>
    if rest.any (· = ' ') then none
    else if rest.any fun d => d = '.' || d = 'e' || d = 'E' then
      fraction? word
    else if c = '_' ∧ body.head? ≠ some '0' then whole? word
    else none

/-- What a word denotes that begins with a zero after its sign, if it has
one. -/
def zeroed? (word : List Char) : Option Toml :=
  match word with
  | '0' :: 'x' :: digits => based? isHexDigit 16 digits
  | '0' :: 'o' :: digits => based? isOctalDigit 8 digits
  | '0' :: 'b' :: digits => based? isBinaryDigit 2 digits
  | _ => if unsigned word = ['0'] then whole? word else number? word

/-- What a word denotes that is no truth value. -/
def numeral? (word : List Char) : Option Toml :=
  match unsigned word with
  | ['i', 'n', 'f'] => some (.float (some (.infinite (word.head? = some '-'))))
  | ['n', 'a', 'n'] => some (.float (some .nan))
  | c :: _ =>
    if c = '0' then zeroed? word
    else if c.isDigit then number? word
    else none
  | [] => none

/-- The value that a word denotes. -/
def word? (word : List Char) : Option Toml :=
  match word with
  | ['t', 'r', 'u', 'e'] => some (.boolean true)
  | ['f', 'a', 'l', 's', 'e'] => some (.boolean false)
  | _ => numeral? word

end TaskMill.Toml
