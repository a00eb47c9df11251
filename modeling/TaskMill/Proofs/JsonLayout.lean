import TaskMill.Proofs.JsonText
/-!
# TaskMill — JSON in several lines is read back

The text of a value in several lines is cut into the same tokens as its text on
one: the line breaks and blanks before a member, an element or a closing bracket
are passed over (`Cut.gaps`), at whatever depth the value stands.

## Results

* `cut_prettyText` — the text of a value in several lines is cut into its tokens.
* `parse?_pretty` — so it is read as that value.
-/

namespace TaskMill.Json

/-- Blanks before a text add no token. -/
theorem Cut.gaps {gap cs : List Char} {ts : List Token} (hGap : ∀ c ∈ gap, isGap c = true)
    (hNext : Cut cs ts) : Cut (gap ++ cs) ts := by
  induction gap with
  | nil => exact hNext
  | cons c more ih =>
    obtain ⟨hFirst, hMore⟩ := List.forall_mem_cons.mp hGap
    intro rest hRest
    rw [List.cons_append, List.cons_append, tokens?, if_pos hFirst]
    exact ih hMore rest hRest

theorem isGap_newline (depth : Nat) : ∀ c ∈ newline depth, isGap c = true := by
  unfold newline
  intro c hc
  rcases List.mem_cons.mp hc with rfl | hBlank
  · rfl
  · obtain rfl := List.eq_of_mem_replicate hBlank
    rfl

theorem ends_newline (depth : Nat) (cs : List Char) : Ends (newline depth ++ cs) :=
  ends_cons rfl

/-- A bracket that closes stands on a line of its own. -/
theorem cut_closing {c : Char} {t : Token} (hMark : mark? c = some t) (depth : Nat) :
    Cut (newline depth ++ [c]) [t] :=
  .gaps (isGap_newline depth) (.mark hMark .nil)

theorem cut_prettyItems {depth : Nat} {items : List Json}
    (hItems : ∀ item ∈ items, Cut (item.prettyText depth) item.tokens) :
    Cut (prettyItems depth items) (itemTokens items) := by
  induction items with
  | nil => exact .nil
  | cons item rest ih =>
    obtain ⟨hFirst, hRest⟩ := List.forall_mem_cons.mp hItems
    have hLine := hFirst.gaps (isGap_newline depth)
    cases rest with
    | nil => exact hLine
    | cons next more => exact hLine.append (.mark (c := ',') rfl (ih hRest)) (ends_cons rfl)

theorem cut_prettyMembers {depth : Nat} {members : List (String × Json)}
    (hMembers : ∀ member ∈ members, Cut (member.2.prettyText depth) member.2.tokens) :
    Cut (prettyMembers depth members) (memberTokens members) := by
  induction members with
  | nil => exact .nil
  | cons member rest ih =>
    obtain ⟨key, value⟩ := member
    obtain ⟨hFirst, hRest⟩ := List.forall_mem_cons.mp hMembers
    have hBlank {cs : List Char} {ts : List Token} (hValue : Cut cs ts) : Cut (' ' :: cs) ts :=
      hValue.gaps (List.forall_mem_singleton.mpr rfl)
    have hMember {cs : List Char} {ts : List Token} (hValue : Cut cs ts) :
        Cut (newline depth ++ (stringText key ++ ':' :: ' ' :: cs)) (.str key :: .colon :: ts) :=
      .gaps (isGap_newline depth)
        (.string key (.mark (c := ':') rfl (hBlank hValue)))
    cases rest with
    | nil => simpa [prettyMembers, memberTokens] using hMember hFirst
    | cons next more =>
      have hValues := hFirst.append (.mark (c := ',') rfl (ih hRest)) (ends_cons rfl)
      simpa [prettyMembers, memberTokens] using hMember hValues

/-- **The text of a value in several lines is cut into its tokens**, at whatever
depth it stands. -/
theorem cut_prettyText {j : Json} (hPlain : j.Plain) (depth : Nat) :
    Cut (j.prettyText depth) j.tokens := by
  induction hPlain generalizing depth with
  | null => exact cut_compactText .null
  | bool value => exact cut_compactText (.bool value)
  | int value => exact cut_compactText (.int value)
  | str value => exact cut_compactText (.str value)
  | @arr items hItems ih =>
    cases items with
    | nil => exact cut_compactText (.arr hItems)
    | cons item rest =>
      have hAll := cut_prettyItems fun i hi => ih i hi (depth + 1)
      have hLines := hAll.append (cut_closing (c := ']') rfl depth) (ends_newline depth _)
      simpa [prettyText, tokens] using Cut.mark (c := '[') rfl hLines
  | @obj members hMembers ih =>
    cases members with
    | nil => exact cut_compactText (.obj hMembers)
    | cons member rest =>
      have hAll := cut_prettyMembers fun m hm => ih m hm (depth + 1)
      have hLines := hAll.append (cut_closing (c := '\x7d') rfl depth) (ends_newline depth _)
      simpa [prettyText, tokens] using Cut.mark (c := '\x7b') rfl hLines

/-- **A value is read back** from its text in several lines. -/
theorem parse?_pretty {j : Json} (hPlain : j.Plain) : parse? j.pretty = some j :=
  parse?_of_cut hPlain (cut_prettyText hPlain 0)

end TaskMill.Json
