/-!
# TaskMill — digits

Numbers written in a base, and read back from their digits.
-/

namespace TaskMill.Text

/-- The value of a decimal digit. -/
def decimalDigit? (c : Char) : Option Nat :=
  if '0' ≤ c ∧ c ≤ '9' then some (c.toNat - '0'.toNat) else none

/-- The value of a hexadecimal digit of either case. -/
def hexDigit? (c : Char) : Option Nat :=
  if '0' ≤ c ∧ c ≤ '9' then some (c.toNat - '0'.toNat)
  else if 'a' ≤ c ∧ c ≤ 'f' then some (c.toNat - 'a'.toNat + 10)
  else if 'A' ≤ c ∧ c ≤ 'F' then some (c.toNat - 'A'.toNat + 10)
  else none

/-- The number that a list of digits of one base denotes; nothing if one of the
characters is no digit. The empty list denotes zero. -/
def readDigits (digit? : Char → Option Nat) (base : Nat) (cs : List Char) : Option Nat :=
  cs.foldlM (fun n c => (digit? c).map (base * n + ·)) 0

/-- The digit of a value below sixteen, in lower case. -/
def hexDigit (n : Nat) : Char :=
  if n < 10 then Char.ofNat ('0'.toNat + n) else Char.ofNat ('a'.toNat + (n - 10))

/-- A number in lower-case hexadecimal, without leading zeros. -/
def hex (n : Nat) : List Char :=
  if n < 16 then [hexDigit n] else hex (n / 16) ++ [hexDigit (n % 16)]

/-- The last `width` hexadecimal digits of a number, zeros included. -/
def hexPadded : Nat → Nat → List Char
  | 0, _ => []
  | width + 1, n => hexPadded width (n / 16) ++ [hexDigit (n % 16)]

/-- The decimal text of a number with at least `width` digits, zeros included. -/
def decimalPadded (width n : Nat) : String :=
  let digits := (Nat.toDigits 10 n)
  String.ofList (List.replicate (width - digits.length) '0' ++ digits)

/-- The number that a non-empty run of decimal digits denotes. -/
def readDecimal? (cs : List Char) : Option Nat :=
  if cs.isEmpty then none else readDigits decimalDigit? 10 cs

/-- The integer that decimal digits with an optional sign denote. -/
def readInteger? (cs : List Char) : Option Int :=
  match cs with
  | '+' :: ds => (readDecimal? ds).map Int.ofNat
  | '-' :: ds => (readDecimal? ds).map fun n => -(n : Int)
  | ds => (readDecimal? ds).map Int.ofNat

end TaskMill.Text
