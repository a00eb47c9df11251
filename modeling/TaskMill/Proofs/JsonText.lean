import TaskMill.Proofs.JsonScalar
/-!
# TaskMill — JSON values are read back

The text of a value on one line is read as that value. Reading goes in two passes,
and so does this: the text is cut into the tokens of the value (`Cut`), whatever
stands around it, and the tokens are read as the value, whatever is open where it
begins. Both are by induction on the value; an array or an object that is half
read is one more open container.

Numbers that are kept as they are written can be anything, so this is about values
without any (`Plain`), which are the values that a program writes.

## Results

* `cut_compactText` — the text of a value is cut into its tokens.
* `foldlM_tokens` — its tokens are read as the value.
* `parse?_compact` — so its text is.
* `clean_compactText` — and stands on one line.
-/

namespace TaskMill.Json

/-- A value all of whose numbers are integers. -/
inductive Plain : Json → Prop
  | null : Plain .null
  | bool (value : Bool) : Plain (.bool value)
  | int (value : Int) : Plain (.int value)
  | str (value : String) : Plain (.str value)
  | arr {items : List Json} (hItems : ∀ item ∈ items, Plain item) : Plain (.arr items)
  | obj {members : List (String × Json)} (hMembers : ∀ member ∈ members, Plain member.2) :
      Plain (.obj members)

-- ---------------------------------------------------------------------------
-- Cutting
-- ---------------------------------------------------------------------------

/-- Nothing, or what cannot go on with a word. -/
def Ends (cs : List Char) : Prop := ∀ c ∈ cs.head?, isWordChar c = false

/-- A text is cut into these tokens, whatever comes after it, if this does not go
on with its last word. -/
def Cut (cs : List Char) (tokens : List Token) : Prop :=
  ∀ rest, Ends rest → tokens? (cs ++ rest) = (tokens? rest).map (tokens ++ ·)

theorem ends_cons {c : Char} {cs : List Char} (hEnds : isWordChar c = false) : Ends (c :: cs) := by
  rintro d ⟨⟩
  exact hEnds

theorem isWordChar_name : ∀ name ∈ ["null", "true", "false"],
    ∀ c ∈ name.toList, isWordChar c = true := by
  simp [isWordChar]

/-- No character of a word is a token by itself, begins a string or stands between
tokens. -/
theorem inWord_of_isWordChar {c : Char} (hWord : isWordChar c = true) :
    isGap c = false ∧ mark? c = none ∧ c ≠ '"' := by
  refine ⟨?_, ?_, ?_⟩
  · rw [← Bool.not_eq_true]
    intro hGap
    simp only [isGap, Bool.or_eq_true, decide_eq_true_eq] at hGap
    rcases hGap with ((rfl | rfl) | rfl) | rfl <;> cases hWord
  · unfold mark?
    split <;> first | rfl | cases hWord
  · rintro rfl
    cases hWord

namespace Cut

variable {cs cs' : List Char} {ts ts' : List Token}

theorem nil : Cut [] [] := by
  intro rest _
  simp

theorem append (hFirst : Cut cs ts) (hNext : Cut cs' ts') (hEnds : Ends cs') :
    Cut (cs ++ cs') (ts ++ ts') := by
  intro rest hRest
  have hBetween : Ends (cs' ++ rest) := by
    cases cs' with
    | nil => exact hRest
    | cons c more => exact hEnds
  rw [List.append_assoc, hFirst _ hBetween, hNext _ hRest, Option.map_map]
  congr 1
  funext more
  exact (List.append_assoc _ _ _).symm

theorem mark {c : Char} {t : Token} (hMark : mark? c = some t) (hNext : Cut cs ts) :
    Cut (c :: cs) (t :: ts) := by
  intro rest hRest
  have hGap : ¬ isGap c = true := by
    intro hGap
    simp only [isGap, Bool.or_eq_true, decide_eq_true_eq] at hGap
    rcases hGap with ((rfl | rfl) | rfl) | rfl <;> cases hMark
  rw [List.cons_append, tokens?, if_neg hGap, hMark]
  simp only
  rw [hNext _ hRest, Option.map_map]
  rfl

theorem string (s : String) (hNext : Cut cs ts) : Cut (stringText s ++ cs) (.str s :: ts) := by
  intro rest hRest
  have hText : stringText s ++ cs ++ rest =
      '"' :: (s.toList.flatMap escapeChar ++ '"' :: (cs ++ rest)) := by simp [stringText]
  have hGap : ¬ isGap '"' = true := by decide
  have hMark : mark? '"' = none := rfl
  have hRead := readString_stringText s (cs ++ rest)
  rw [hText, tokens?, if_neg hGap, hMark]
  simp only [if_true]
  split
  case h_1 hNone =>
    rw [hRead] at hNone
    cases hNone
  case h_2 value more hSome =>
    obtain ⟨rfl, rfl⟩ := Prod.mk.inj (Option.some.inj (hRead.symm.trans hSome))
    rw [hNext _ hRest, Option.map_map]
    rfl

theorem word {word : List Char} {v : Json} (hSome : word ≠ [])
    (hWord : ∀ c ∈ word, isWordChar c = true) (hScalar : scalar? word = some v) :
    Cut word [.scalar v] := by
  intro rest hRest
  obtain ⟨c, more, rfl⟩ := List.exists_cons_of_ne_nil hSome
  obtain ⟨hFirst, hMore⟩ := List.forall_mem_cons.mp hWord
  obtain ⟨hGap, hMark, hQuote⟩ := inWord_of_isWordChar hFirst
  have hStop : rest.takeWhile isWordChar = [] ∧ rest.dropWhile isWordChar = rest := by
    cases rest with
    | nil => exact ⟨rfl, rfl⟩
    | cons next later =>
      have hNext : ¬ isWordChar next = true := by simpa using hRest next rfl
      exact ⟨List.takeWhile_cons_of_neg hNext, List.dropWhile_cons_of_neg hNext⟩
  have hTake : (more ++ rest).takeWhile isWordChar = more := by
    rw [List.takeWhile_append_of_pos hMore, hStop.1, List.append_nil]
  have hDrop : (more ++ rest).dropWhile isWordChar = rest := by
    rw [List.dropWhile_append_of_pos hMore, hStop.2]
  rw [List.cons_append, tokens?, hGap, if_neg (by simp), hMark]
  simp only [if_neg hQuote, if_pos hFirst, hTake, hDrop, hScalar]
  rfl

end Cut

mutual

/-- The tokens of a value. -/
def tokens : Json → List Token
  | arr items => .openArr :: itemTokens items ++ [.closeArr]
  | obj members => .openObj :: memberTokens members ++ [.closeObj]
  | str s => [.str s]
  | scalar => [.scalar scalar]

/-- The tokens of the elements of an array, with commas between them. -/
def itemTokens : List Json → List Token
  | [] => []
  | [item] => tokens item
  | item :: rest => tokens item ++ .comma :: itemTokens rest

/-- The tokens of the members of an object, with commas between them. -/
def memberTokens : List (String × Json) → List Token
  | [] => []
  | [(key, value)] => .str key :: .colon :: tokens value
  | (key, value) :: rest => .str key :: .colon :: tokens value ++ .comma :: memberTokens rest

end

theorem cut_compactItems {items : List Json}
    (hItems : ∀ item ∈ items, Cut item.compactText item.tokens) :
    Cut (compactItems items) (itemTokens items) := by
  induction items with
  | nil => exact .nil
  | cons item rest ih =>
    obtain ⟨hFirst, hRest⟩ := List.forall_mem_cons.mp hItems
    cases rest with
    | nil => exact hFirst
    | cons next more => exact hFirst.append (.mark (c := ',') rfl (ih hRest)) (ends_cons rfl)

theorem cut_compactMembers {members : List (String × Json)}
    (hMembers : ∀ member ∈ members, Cut member.2.compactText member.2.tokens) :
    Cut (compactMembers members) (memberTokens members) := by
  induction members with
  | nil => exact .nil
  | cons member rest ih =>
    obtain ⟨key, value⟩ := member
    obtain ⟨hFirst, hRest⟩ := List.forall_mem_cons.mp hMembers
    cases rest with
    | nil => exact .string key (.mark (c := ':') rfl hFirst)
    | cons next more =>
      have hValues := hFirst.append (.mark (c := ',') rfl (ih hRest)) (ends_cons rfl)
      simpa [compactMembers, memberTokens] using Cut.string key (.mark (c := ':') rfl hValues)

/-- **The text of a value is cut into its tokens.** -/
theorem cut_compactText {j : Json} (hPlain : j.Plain) : Cut j.compactText j.tokens := by
  induction hPlain with
  | null => exact .word (by decide) (isWordChar_name "null" (by decide)) rfl
  | bool value =>
    cases value with
    | false => exact .word (by decide) (isWordChar_name "false" (by decide)) rfl
    | true => exact .word (by decide) (isWordChar_name "true" (by decide)) rfl
  | int value =>
    exact .word (toString_ne_nil value) (isWordChar_toString value) (scalar?_toString value)
  | str value =>
    have hString := Cut.string value .nil
    rwa [List.append_nil] at hString
  | arr _ ih =>
    have hItems := (cut_compactItems ih).append (.mark (c := ']') rfl .nil) (ends_cons rfl)
    exact .mark (c := '[') rfl hItems
  | obj _ ih =>
    have hMembers := (cut_compactMembers ih).append (.mark (c := '\x7d') rfl .nil) (ends_cons rfl)
    exact .mark (c := '\x7b') rfl hMembers

-- ---------------------------------------------------------------------------
-- Reading
-- ---------------------------------------------------------------------------

theorem foldlM_single (st : Expecting) (t : Token) : [t].foldlM take st = take st t := by
  simp

/-- The first element is read where it may come as where it must. -/
theorem foldlM_firstItem (item : Json) (rest : List Json) (frames : List Frame)
    (later : List Token) :
    (itemTokens (item :: rest) ++ later).foldlM take (.firstItem frames) =
      (itemTokens (item :: rest) ++ later).foldlM take (.value frames) := by
  cases item <;> cases rest <;> rfl

/-- The first member is read where it may come as where it must. -/
theorem foldlM_firstKey (member : String × Json) (rest : List (String × Json))
    (frames : List Frame) (later : List Token) :
    (memberTokens (member :: rest) ++ later).foldlM take (.firstKey frames) =
      (memberTokens (member :: rest) ++ later).foldlM take (.key frames) := by
  cases rest <;> rfl

theorem foldlM_itemTokens {frames : List Frame} {items : List Json}
    (hItems : ∀ item ∈ items, ∀ frames,
      item.tokens.foldlM take (.value frames) = settle item frames)
    (hSome : items ≠ []) (done : List Json) :
    (itemTokens items).foldlM take (.value (.arr done :: frames)) =
      some (.more (.arr (items.reverse ++ done) :: frames)) := by
  induction items generalizing done with
  | nil => exact absurd rfl hSome
  | cons item rest ih =>
    obtain ⟨hFirst, hRest⟩ := List.forall_mem_cons.mp hItems
    cases rest with
    | nil => exact hFirst _
    | cons next more =>
      have hItem : settle item (.arr done :: frames) =
          some (.more (.arr (item :: done) :: frames)) := rfl
      have hComma : take (.more (.arr (item :: done) :: frames)) .comma =
          some (.value (.arr (item :: done) :: frames)) := rfl
      rw [itemTokens, List.foldlM_append, hFirst, hItem]
      · simp only [Option.bind_eq_bind, Option.bind_some, List.foldlM_cons, hComma]
        rw [ih hRest (by simp)]
        simp
      · simp

theorem foldlM_memberTokens {frames : List Frame} {members : List (String × Json)}
    (hMembers : ∀ member ∈ members, ∀ frames,
      member.2.tokens.foldlM take (.value frames) = settle member.2 frames)
    (hSome : members ≠ []) (done : List (String × Json)) :
    (memberTokens members).foldlM take (.key (.obj done :: frames)) =
      some (.more (.obj (members.reverse ++ done) :: frames)) := by
  induction members generalizing done with
  | nil => exact absurd rfl hSome
  | cons member rest ih =>
    obtain ⟨key, value⟩ := member
    obtain ⟨hFirst, hRest⟩ := List.forall_mem_cons.mp hMembers
    have hName (later : List Token) :
        (Token.str key :: .colon :: later).foldlM take (.key (.obj done :: frames)) =
          later.foldlM take (.value (.keyed done key :: frames)) := rfl
    have hValue : settle value (.keyed done key :: frames) =
        some (.more (.obj ((key, value) :: done) :: frames)) := rfl
    cases rest with
    | nil =>
      rw [memberTokens, hName, hFirst, hValue]
      rfl
    | cons next more =>
      have hComma : take (.more (.obj ((key, value) :: done) :: frames)) .comma =
          some (.key (.obj ((key, value) :: done) :: frames)) := rfl
      rw [memberTokens, List.cons_append, List.cons_append, hName, List.foldlM_append, hFirst,
        hValue]
      · simp only [Option.bind_eq_bind, Option.bind_some, List.foldlM_cons, hComma]
        rw [ih hRest (by simp)]
        simp
      · simp

/-- **The tokens of a value are read as the value**, which then belongs to the
innermost open container. -/
theorem foldlM_tokens {j : Json} (hPlain : j.Plain) (frames : List Frame) :
    j.tokens.foldlM take (.value frames) = settle j frames := by
  induction hPlain generalizing frames with
  | null => exact foldlM_single _ _
  | bool value => exact foldlM_single _ _
  | int value => exact foldlM_single _ _
  | str value => exact foldlM_single _ _
  | @arr items _ ih =>
    have hOpen : take (.value frames) .openArr = some (.firstItem (.arr [] :: frames)) := rfl
    rw [tokens, List.cons_append, List.foldlM_cons, hOpen, Option.bind_eq_bind, Option.bind_some]
    cases items with
    | nil => exact foldlM_single _ _
    | cons item rest =>
      rw [foldlM_firstItem, List.foldlM_append, foldlM_itemTokens ih (by simp)]
      simp [take, close]
  | @obj members _ ih =>
    have hOpen : take (.value frames) .openObj = some (.firstKey (.obj [] :: frames)) := rfl
    rw [tokens, List.cons_append, List.foldlM_cons, hOpen, Option.bind_eq_bind, Option.bind_some]
    cases members with
    | nil => exact foldlM_single _ _
    | cons member rest =>
      rw [foldlM_firstKey, List.foldlM_append, foldlM_memberTokens ih (by simp)]
      simp [take, close]

/-- A text that is cut into the tokens of a value is read as that value. -/
theorem parse?_of_cut {cs : List Char} {j : Json} (hPlain : j.Plain) (hCut : Cut cs j.tokens) :
    parse? (String.ofList cs) = some j := by
  have hAll := hCut [] (by rintro c ⟨⟩)
  have hEnd : tokens? [] = some [] := by rw [tokens?]
  rw [List.append_nil, hEnd, Option.map_some, List.append_nil] at hAll
  have hRead : j.tokens.foldlM take (.value []) = some (.nothing j) := foldlM_tokens hPlain []
  rw [parse?, String.toList_ofList, hAll, Option.bind_some, ofTokens?, hRead]

/-- **A value is read back** from its text on one line. -/
theorem parse?_compact {j : Json} (hPlain : j.Plain) : parse? j.compact = some j :=
  parse?_of_cut hPlain (cut_compactText hPlain)

-- ---------------------------------------------------------------------------
-- One line
-- ---------------------------------------------------------------------------

theorem Clean.append {cs cs' : List Char} (hFirst : Clean cs) (hNext : Clean cs') :
    Clean (cs ++ cs') :=
  List.forall_mem_append.mpr ⟨hFirst, hNext⟩

theorem Clean.cons {c : Char} {cs : List Char} (hFirst : 0x20 ≤ c.toNat) (hNext : Clean cs) :
    Clean (c :: cs) :=
  List.forall_mem_cons.mpr ⟨hFirst, hNext⟩

theorem clean_compactItems {items : List Json} (hItems : ∀ item ∈ items, Clean item.compactText) :
    Clean (compactItems items) := by
  induction items with
  | nil => exact List.forall_mem_nil _
  | cons item rest ih =>
    obtain ⟨hFirst, hRest⟩ := List.forall_mem_cons.mp hItems
    cases rest with
    | nil => exact hFirst
    | cons next more => exact hFirst.append (.cons (by decide) (ih hRest))

theorem clean_compactMembers {members : List (String × Json)}
    (hMembers : ∀ member ∈ members, Clean member.2.compactText) :
    Clean (compactMembers members) := by
  induction members with
  | nil => exact List.forall_mem_nil _
  | cons member rest ih =>
    obtain ⟨key, value⟩ := member
    obtain ⟨hFirst, hRest⟩ := List.forall_mem_cons.mp hMembers
    have hMember : Clean (stringText key ++ ':' :: value.compactText) :=
      (clean_stringText key).append (.cons (by decide) hFirst)
    cases rest with
    | nil => exact hMember
    | cons next more =>
      simpa [compactMembers] using hMember.append (.cons (c := ',') (by decide) (ih hRest))

/-- **The text of a value stands on one line**: no character of it is a control. -/
theorem clean_compactText {j : Json} (hPlain : j.Plain) : Clean j.compactText := by
  have hEmpty : Clean [] := List.forall_mem_nil _
  induction hPlain with
  | null => exact clean_of_isWordChar (isWordChar_name "null" (by decide))
  | bool value =>
    cases value with
    | false => exact clean_of_isWordChar (isWordChar_name "false" (by decide))
    | true => exact clean_of_isWordChar (isWordChar_name "true" (by decide))
  | int value => exact clean_toString value
  | str value => exact clean_stringText value
  | arr _ ih =>
    exact .cons (by decide) ((clean_compactItems ih).append (.cons (by decide) hEmpty))
  | obj _ ih =>
    exact .cons (by decide) ((clean_compactMembers ih).append (.cons (by decide) hEmpty))

end TaskMill.Json
