import TaskMill.Text.Blank
import TaskMill.Text.Digits
/-!
# TaskMill — identifiers and instants of events

An identifier is a number of 128 bits, written as 32 hexadecimal digits in
groups. An instant is written in the form `2024-05-06T07:08:09.5Z`, in
universal time, with as many groups of three decimals as it needs; it is read
in any offset, with blanks around its parts.
-/

namespace TaskMill

-- ---------------------------------------------------------------------------
-- Identifiers
-- ---------------------------------------------------------------------------

/-- An identifier of 128 bits. -/
structure EventId where
  value : BitVec 128
  deriving DecidableEq, Inhabited

namespace EventId

/-- The identifier in lower case, its digits in groups of 8, 4, 4, 4 and 12. -/
def text (id : EventId) : String :=
  let digits := Text.hexPadded 32 id.value.toNat
  String.ofList (digits.take 8 ++ '-' :: (digits.drop 8).take 4 ++ '-' :: (digits.drop 12).take 4
    ++ '-' :: (digits.drop 16).take 4 ++ '-' :: digits.drop 20)

/-- The identifier that 32 hexadecimal digits denote. -/
def ofDigits? (cs : List Char) : Option EventId :=
  if cs.length = 32 then (Text.readDigits Text.hexDigit? 16 cs).map fun n => ⟨BitVec.ofNat 128 n⟩
  else none

/-- The identifier that digits in groups denote. -/
def ofGroups? (cs : List Char) : Option EventId :=
  if cs.length = 36 ∧ [8, 13, 18, 23].all (fun i => cs[i]? = some '-') then
    ofDigits? (cs.take 8 ++ (cs.drop 9).take 4 ++ (cs.drop 14).take 4 ++ (cs.drop 19).take 4
      ++ cs.drop 24)
  else none

/-- The identifier that a text denotes: with or without groups, the grouped
form also in braces or after `urn:uuid:` in letters of either case. -/
def parse? (s : String) : Option EventId :=
  let cs := s.toList
  if cs.length = 32 then ofDigits? cs
  else if cs.length = 38 ∧ cs.head? = some '\x7b' ∧ cs.getLast? = some '\x7d' then
    ofGroups? (cs.drop 1).dropLast
  else if (cs.take 9).map Char.toLower = "urn:uuid:".toList then ofGroups? (cs.drop 9)
  else ofGroups? cs

end EventId

-- ---------------------------------------------------------------------------
-- Calendar
-- ---------------------------------------------------------------------------

/-- Whether a year has 366 days. -/
def isLeapYear (year : Int) : Bool :=
  year % 4 = 0 && (year % 100 != 0 || year % 400 = 0)

/-- How many days a month has. -/
def daysInMonth (year : Int) (month : Nat) : Nat :=
  if month = 2 then (if isLeapYear year then 29 else 28)
  else if month = 4 ∨ month = 6 ∨ month = 9 ∨ month = 11 then 30
  else 31

/-- How many days lie between the beginning of 1970 and a date, where years
begin in March so that the leap day comes last. -/
def daysSinceEpoch (year : Int) (month day : Nat) : Int :=
  let y := if month ≤ 2 then year - 1 else year
  let m : Int := (month + 9) % 12
  365 * y + Int.fdiv y 4 - Int.fdiv y 100 + Int.fdiv y 400 + (153 * m + 2) / 5 + day - 1 - 719468

/-- The year, month and day of a day counted from the beginning of 1970. -/
def dateOfDays (days : Int) : Int × Nat × Nat :=
  let d := days + 719468
  let era := Int.fdiv d 146097
  let dayOfEra := d - era * 146097
  let yearOfEra := (dayOfEra - dayOfEra / 1460 + dayOfEra / 36524 - dayOfEra / 146096) / 365
  let dayOfYear := dayOfEra - (365 * yearOfEra + yearOfEra / 4 - yearOfEra / 100)
  let m := (5 * dayOfYear + 2) / 153
  let day := dayOfYear - (153 * m + 2) / 5 + 1
  let month := if m < 10 then m + 3 else m - 9
  (yearOfEra + era * 400 + (if month ≤ 2 then 1 else 0), month.toNat, day.toNat)

-- ---------------------------------------------------------------------------
-- Instants
-- ---------------------------------------------------------------------------

/-- An instant: seconds since the beginning of 1970 in universal time, and the
nanoseconds beyond; a billion and more of them stand for a leap second. -/
structure Timestamp where
  seconds : Int
  nanos : Nat
  deriving DecidableEq, Inhabited

namespace Timestamp

/-- Decimals of a second, as many groups of three as are needed. -/
def fraction (nanos : Nat) : String :=
  if nanos = 0 then ""
  else if nanos % 1000000 = 0 then "." ++ Text.decimalPadded 3 (nanos / 1000000)
  else if nanos % 1000 = 0 then "." ++ Text.decimalPadded 6 (nanos / 1000)
  else "." ++ Text.decimalPadded 9 nanos

/-- A year of four digits, or one with a sign and at least four. -/
def yearText (year : Int) : String :=
  if 0 ≤ year ∧ year ≤ 9999 then Text.decimalPadded 4 year.toNat
  else (if year < 0 then "-" else "+") ++ Text.decimalPadded 4 year.natAbs

/-- The instant in universal time. -/
def text (t : Timestamp) : String :=
  let days := Int.fdiv t.seconds 86400
  let rest := (t.seconds - days * 86400).toNat
  let (year, month, day) := dateOfDays days
  let leap := t.nanos / 1000000000
  let pad := Text.decimalPadded 2
  let date := s!"{yearText year}-{pad month}-{pad day}"
  let time := s!"{pad (rest / 3600)}:{pad (rest / 60 % 60)}:{pad (rest % 60 + leap)}"
  s!"{date}T{time}{fraction (t.nanos % 1000000000)}Z"

/-- A list of characters without the blanks it begins with. -/
def skipBlank (cs : List Char) : List Char :=
  cs.dropWhile Text.isBlank

/-- Reads a number of one to `width` digits. -/
def digits? (width : Nat) (cs : List Char) : Option (Nat × List Char) :=
  let digits := (cs.take width).takeWhile Char.isDigit
  (Text.readDecimal? digits).map (·, cs.drop digits.length)

/-- Reads a number of one to `width` digits, after blanks. -/
def number? (width : Nat) (cs : List Char) : Option (Nat × List Char) :=
  digits? width (skipBlank cs)

/-- Reads one character, after blanks. -/
def literal? (c : Char) (cs : List Char) : Option (List Char) :=
  match skipBlank cs with
  | d :: rest => if d = c then some rest else none
  | [] => none

/-- Reads a year, after blanks: up to four digits, or any number of them right
after a sign. -/
def year? (cs : List Char) : Option (Int × List Char) :=
  match skipBlank cs with
  | '-' :: rest => (digits? rest.length rest).map fun (n, r) => (-(n : Int), r)
  | '+' :: rest => (digits? rest.length rest).map fun (n, r) => ((n : Int), r)
  | rest => (digits? 4 rest).map fun (n, r) => ((n : Int), r)

/-- Reads decimals of a second, if there are any, as nanoseconds; decimals
beyond the ninth are passed over. -/
def decimals? (cs : List Char) : Option (Nat × List Char) :=
  match cs with
  | '.' :: rest =>
    let digits := rest.takeWhile Char.isDigit
    let kept := digits.take 9
    (Text.readDecimal? kept).map fun n =>
      (n * Nat.pow 10 (9 - kept.length), rest.drop digits.length)
  | _ => some (0, cs)

/-- Reads an offset from universal time in seconds: `Z`, `UTC`, or a sign with
hours and minutes, between which any colons and blanks may stand. -/
def offset? (cs : List Char) : Option (Int × List Char) :=
  if (cs.take 3).map Char.toUpper = ['U', 'T', 'C'] then some (0, cs.drop 3)
  else
    match cs with
    | 'Z' :: rest | 'z' :: rest => some (0, rest)
    | sign :: h1 :: h2 :: rest => do
      let sign ← if sign = '+' then some (1 : Int)
        else if sign = '-' ∨ sign = '\u2212' then some (-1) else none
      let hours ← Text.readDecimal? [h1, h2]
      match rest.dropWhile fun c => c = ':' || Text.isBlank c with
      | m1 :: m2 :: rest =>
        let minutes ← Text.readDecimal? [m1, m2]
        if minutes < 60 ∧ hours < 24 then
          return (sign * (hours * 3600 + minutes * 60 : Nat), rest)
        else none
      | _ => none
    | _ => none

/-- The second with which the calendar begins, in the year -262143. -/
def firstSecond : Int := daysSinceEpoch (-262143) 1 1 * 86400

/-- The second with which the calendar ends, in the year 262142. -/
def lastSecond : Int := daysSinceEpoch 262142 12 31 * 86400 + 86399

/-- The instant that a text denotes. The calendar bounds the instant in
universal time as well as the date as it is written. -/
def parse? (s : String) : Option Timestamp := do
  let (year, cs) ← year? s.toList
  let (month, cs) ← number? 2 (← literal? '-' cs)
  let (day, cs) ← number? 2 (← literal? '-' cs)
  let cs ← match cs with
    | c :: rest => if c = 't' ∨ c = 'T' ∨ c = ' ' then some rest else none
    | [] => none
  let (hour, cs) ← number? 2 cs
  let (minute, cs) ← number? 2 (← literal? ':' cs)
  let (second, cs) ← number? 2 (← literal? ':' cs)
  let (nanos, cs) ← decimals? cs
  let (offset, cs) ← offset? (skipBlank cs)
  if skipBlank cs = [] ∧ 1 ≤ month ∧ month ≤ 12 ∧ 1 ≤ day ∧ day ≤ daysInMonth year month
      ∧ hour ≤ 23 ∧ minute ≤ 59 ∧ second ≤ 60 ∧ -262143 ≤ year ∧ year ≤ 262142 then
    let leap := if second = 60 then 1 else 0
    let ofDay : Int := hour * 3600 + minute * 60 + (second - leap : Nat)
    let seconds := daysSinceEpoch year month day * 86400 + ofDay - offset
    if firstSecond ≤ seconds ∧ seconds ≤ lastSecond then
      return ⟨seconds, nanos + leap * 1000000000⟩
    else none
  else none

end Timestamp

end TaskMill
