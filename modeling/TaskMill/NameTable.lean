/-!
# TaskMill — tables of names

A **table** has a number for each of the names that have been entered in it. A
name that is entered again gets the new number.
-/

namespace TaskMill

/-- Names and their numbers; the first entry under a name counts. -/
structure NameTable where
  entries : List (String × Nat)
  deriving DecidableEq, Inhabited

namespace NameTable

variable {t : NameTable} {name other : String} {n : Nat}

/-- No names. -/
def empty : NameTable := ⟨[]⟩

/-- The number of a name, if it has been entered. -/
def get? (t : NameTable) (name : String) : Option Nat :=
  t.entries.lookup name

/-- Enters a name. -/
def insert (t : NameTable) (name : String) (n : Nat) : NameTable :=
  ⟨(name, n) :: t.entries⟩

@[simp] theorem get?_empty : empty.get? name = none := rfl

@[simp] theorem get?_insert_self : (t.insert name n).get? name = some n :=
  List.lookup_cons_self

theorem get?_insert_of_ne (hNe : other ≠ name) : (t.insert name n).get? other = t.get? other := by
  rw [get?, insert, List.lookup_cons, beq_eq_false_iff_ne.2 hNe]
  rfl

end NameTable

end TaskMill
