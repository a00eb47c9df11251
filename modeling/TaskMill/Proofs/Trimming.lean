import Mathlib.Data.List.DropRight
import Mathlib.Data.List.TakeWhile
import TaskMill.Text.Blank
/-!
# TaskMill — trimmed texts

What is left of a text without the white space at its end is said without the scan
that finds it (`Trimmed`): the text is that and white space, and that does not end
in white space.

## Results

* `trimmed_iff` — the scan finds the trimmed text.
* `dropBlankEnd_append_of_blank`, `dropBlankEnd_append_of_mem` — what becomes of two
  texts in a row.
* `trimEnd_eq_empty_iff` — nothing is left of a blank text only.
-/

namespace TaskMill.Text

variable {cs ds kept : List Char} {c : Char} {s : String}

/-- `kept` is all of `cs` but the white space at its end. -/
def Trimmed (cs kept : List Char) : Prop :=
  (∃ blanks, cs = kept ++ blanks ∧ ∀ c ∈ blanks, isBlank c = true) ∧
    ∀ c ∈ kept.getLast?, isBlank c = false

theorem dropBlankEnd_eq_rdropWhile (cs : List Char) : dropBlankEnd cs = cs.rdropWhile isBlank := rfl

theorem dropBlankEnd_eq_nil_iff : dropBlankEnd cs = [] ↔ ∀ c ∈ cs, isBlank c = true :=
  List.rdropWhile_eq_nil_iff

/-- White space at the end makes no difference. -/
theorem dropBlankEnd_append_of_blank (hBlank : ∀ c ∈ ds, isBlank c = true) :
    dropBlankEnd (cs ++ ds) = dropBlankEnd cs := by
  have hAll : ∀ c ∈ ds.reverse, isBlank c = true := fun c hc => hBlank c (List.mem_reverse.mp hc)
  rw [dropBlankEnd, List.reverse_append, List.dropWhile_append_of_pos hAll, dropBlankEnd]

/-- What stands before something else than white space is kept. -/
theorem dropBlankEnd_append_of_mem (hMem : c ∈ ds) (hShown : isBlank c = false) :
    dropBlankEnd (cs ++ ds) = cs ++ dropBlankEnd ds := by
  have hSome : (ds.reverse.dropWhile isBlank).isEmpty = false := by
    rw [List.isEmpty_eq_false_iff]
    intro hNone
    have hBlank := List.dropWhile_eq_nil_iff.mp hNone c (List.mem_reverse.mpr hMem)
    rw [hShown] at hBlank
    cases hBlank
  rw [dropBlankEnd, List.reverse_append, List.dropWhile_append, hSome, if_neg (by simp),
    List.reverse_append, List.reverse_reverse, dropBlankEnd]

/-- A text that does not end in white space is kept. -/
theorem dropBlankEnd_of_getLast? (hLast : ∀ c ∈ cs.getLast?, isBlank c = false) :
    dropBlankEnd cs = cs := by
  rw [dropBlankEnd_eq_rdropWhile, List.rdropWhile_eq_self_iff]
  intro hSome
  rw [hLast _ (List.getLast?_eq_some_getLast hSome)]
  simp

theorem trimmed_dropBlankEnd (cs : List Char) : Trimmed cs (dropBlankEnd cs) := by
  rw [dropBlankEnd_eq_rdropWhile]
  refine ⟨⟨cs.rtakeWhile isBlank, ?_, fun c => List.mem_rtakeWhile_imp⟩, fun c hc => ?_⟩
  · exact List.rdropWhile_append_rtakeWhile.symm
  · have hSome : cs.rdropWhile isBlank ≠ [] := by
      intro hNone
      rw [hNone] at hc
      cases hc
    rw [List.getLast?_eq_some_getLast hSome] at hc
    obtain rfl := Option.some.inj hc
    exact Bool.eq_false_iff.mpr (List.rdropWhile_last_not isBlank cs hSome)

/-- **The scan finds the trimmed text**, and there is one. -/
theorem trimmed_iff : Trimmed cs kept ↔ kept = dropBlankEnd cs := by
  constructor
  · rintro ⟨⟨blanks, rfl, hBlanks⟩, hLast⟩
    rw [dropBlankEnd_append_of_blank hBlanks, dropBlankEnd_of_getLast? hLast]
  · rintro rfl
    exact trimmed_dropBlankEnd cs

theorem trimEnd_eq_empty_iff : (trimEnd s).isEmpty = isBlankText s := by
  rw [Bool.eq_iff_iff, String.isEmpty_iff, trimEnd, isBlankText, List.all_eq_true,
    ← dropBlankEnd_eq_nil_iff]
  constructor
  · intro hEmpty
    simpa using congrArg String.toList hEmpty
  · intro hNone
    rw [hNone]

end TaskMill.Text
