import TaskMill.Text.Digits
/-!
# TaskMill — binary fractions and their decimal text

Numbers with a significand of 53 bits. A decimal is rounded to the nearest such
number, and the number is written with the fewest decimal digits that still
round to it; of two candidates the nearer one is taken, of two equally near ones
the greater. All arithmetic is on natural numbers and exact.
-/

namespace TaskMill

/-- A number that a 64-bit binary fraction can hold. -/
inductive Binary where
  /-- The number `significand * 2 ^ exponent`, or its negative. -/
  | finite (negative : Bool) (significand : Nat) (exponent : Int)
  | infinite (negative : Bool)
  | nan
  deriving DecidableEq, Inhabited

namespace Binary

/-- The least exponent. -/
def minExponent : Int := -1074

/-- The greatest exponent. -/
def maxExponent : Int := 971

/-- The quotient `num / den` rounded to the nearest natural number, to the even
one of two that are equally near. -/
def roundDiv (num den : Nat) : Nat :=
  let quotient := num / den
  let rest := 2 * (num % den)
  if rest < den then quotient
  else if den < rest then quotient + 1
  else quotient + quotient % 2

/-- A power as a numerator and a denominator of a quotient. -/
def scaled (base : Nat) (exponent : Int) (num den : Nat) : Nat × Nat :=
  if 0 ≤ exponent then (num * Nat.pow base exponent.toNat, den)
  else (num, den * Nat.pow base (-exponent).toNat)

/-- The least significand of 53 bits. -/
def leastNormal : Nat := 4503599627370496

/-- The significand and the exponent nearest to `num / den`. -/
def nearest (num den : Nat) : Nat × Int :=
  let guess : Int := (num.log2 : Int) - den.log2 - 52
  -- the quotient lies between 2 ^ (guess + 51) and 2 ^ (guess + 53)
  let (n, d) := scaled 2 (-guess) num den
  let exponent := max minExponent (if n < leastNormal * d then guess - 1 else guess)
  let (n, d) := scaled 2 (-exponent) num den
  let m := roundDiv n d
  if m = 2 * leastNormal then (leastNormal, exponent + 1) else (m, exponent)

/-- The number nearest to `digits * 10 ^ exponent`; nothing if that is too
large. -/
def ofDecimal? (negative : Bool) (digits : Nat) (exponent : Int) : Option Binary :=
  let magnitude := exponent + (Nat.toDigits 10 digits).length
  if digits = 0 ∨ magnitude < -400 then some (finite negative 0 minExponent)
  else if 400 < magnitude then none
  else
    let (num, den) := scaled 10 exponent digits 1
    let (m, q) := nearest num den
    if maxExponent < q then none else some (finite negative m q)

-- ---------------------------------------------------------------------------
-- Decimal text
-- ---------------------------------------------------------------------------

/-- Whether the decimal `digits * 10 ^ exponent` rounds to the number with the
significand `m` and the exponent `q`. -/
def roundsTo (m : Nat) (q : Int) (digits : Nat) (exponent : Int) : Bool :=
  let (num, den) := scaled 10 exponent digits 1
  nearest num den = (m, q)

/-- The decimal with exponent `exponent` that lies nearest to `m * 2 ^ q`, the
greater one of two equally near, if it rounds to that number; or else its other
neighbour, if that does. -/
def candidate? (m : Nat) (q exponent : Int) : Option Nat :=
  let (num, den) := scaled 2 q m 1
  let (num, den) := scaled 10 (-exponent) num den
  let below := num / den
  let (first, second) := if den ≤ 2 * (num % den) then (below + 1, below) else (below, below + 1)
  if roundsTo m q first exponent then some first
  else if roundsTo m q second exponent then some second
  else none

/-- The digits and the exponent of the shortest decimal that rounds to
`m * 2 ^ q`, tried from exponent `exponent` downwards at most `tries` times. -/
def shortestFrom (m : Nat) (q : Int) : Nat → Int → Nat × Int
  | 0, exponent => ((candidate? m q exponent).getD 0, exponent)
  | tries + 1, exponent =>
    match candidate? m q exponent with
    | some digits => (digits, exponent)
    | none => shortestFrom m q tries (exponent - 1)

/-- The digits and the exponent of the shortest decimal that rounds to
`m * 2 ^ q`. -/
def shortest (m : Nat) (q : Int) : Nat × Int :=
  let (num, den) := scaled 2 q m 1
  -- no more than one above the number of digits before the point
  let top : Int := if den ≤ num then (Nat.toDigits 10 (num / den)).length
    else 1 - (Nat.toDigits 10 (den / num)).length
  shortestFrom m q 18 top

/-- A decimal without exponent: zeros stand wherever its digits do not. -/
def positional (digits : Nat) (exponent : Int) : String :=
  let cs := Nat.toDigits 10 digits
  if 0 ≤ exponent then
    String.ofList (cs ++ List.replicate exponent.toNat '0') ++ ".0"
  else
    let places := (-exponent).toNat
    if places < cs.length then
      String.ofList (cs.take (cs.length - places) ++ '.' :: cs.drop (cs.length - places))
    else String.ofList ('0' :: '.' :: List.replicate (places - cs.length) '0' ++ cs)

/-- The text of a number: no exponent, and a point with at least one digit
after it. -/
def text : Binary → String
  | finite negative m q =>
    let sign := if negative then "-" else ""
    if m = 0 then sign ++ "0.0"
    else
      let (digits, exponent) := shortest m q
      sign ++ positional digits exponent
  | infinite negative => if negative then "-inf" else "inf"
  | nan => "NaN"

end Binary

end TaskMill
