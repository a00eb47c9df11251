/-!
# TaskMill — words

The numbers that words of a given width hold, with and without a sign.
-/

namespace TaskMill.Word

/-- How many values a word of `bits` bits has. -/
def count (bits : Nat) : Nat :=
  1 <<< bits

/-- Whether a word without a sign holds a number. -/
def holds (bits : Nat) (n : Int) : Bool :=
  decide (0 ≤ n ∧ n < count bits)

/-- Whether a word with a sign holds a number. -/
def holdsSigned (bits : Nat) (n : Int) : Bool :=
  decide (-(count (bits - 1) : Int) ≤ n ∧ n < count (bits - 1))

end TaskMill.Word
