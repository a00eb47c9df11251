import Mathlib.Data.List.TakeWhile
import TaskMill.Proofs.JsonScalar
import TaskMill.Task
/-!
# TaskMill — what a command line shows

The characters of a quoted text are read back one after the other
(`unquoteChar?`), up to the quote that ends it: what stands for a character never
begins what stands for another one. An argument that is shown as it is ends at a
space, so arguments that are shown one after the other are told apart, as long as
none that is shown as it is looks like a quoted one (`Action.Legible`).

All white space but the space is unprintable, so it is escaped wherever a text is
quoted, and no other argument has any.

## Results

* `Text.unquoteChar?_quoteChar` — a quoted character is read back.
* `isUnprintable_of_isBlank` — of all white space only the space is printable.
* `Action.shownArg_append_inj` — an argument is told from what comes after it.
* `Action.line_keeps_arguments` — a command line tells its arguments.
-/

namespace TaskMill

namespace Text

-- ---------------------------------------------------------------------------
-- Numbers in hexadecimal
-- ---------------------------------------------------------------------------

theorem readDigits_hex (n : Nat) : readDigits hexDigit? 16 (hex n) = some n := by
  induction n using Nat.strongRecOn with
  | ind n ih =>
    unfold hex
    split
    case isTrue hDigit => simp [readDigits, hexDigit?_hexDigit n hDigit]
    case isFalse hMore =>
      have hFront := ih (n / 16) (by omega)
      have hLast := hexDigit?_hexDigit (n % 16) (by omega)
      rw [readDigits] at hFront
      rw [readDigits, List.foldlM_append, hFront]
      simp only [List.foldlM_cons, List.foldlM_nil, hLast, Option.bind_eq_bind, Option.bind_some,
        Option.map_some, Option.pure_def]
      congr 1
      omega

/-- A number is written in digits only. -/
theorem exists_hexDigit_of_mem_hex {n : Nat} {c : Char} (hMem : c ∈ hex n) :
    ∃ d < 16, c = hexDigit d := by
  induction n using Nat.strongRecOn with
  | ind n ih =>
    unfold hex at hMem
    split at hMem
    case isTrue hDigit => exact ⟨n, hDigit, List.mem_singleton.mp hMem⟩
    case isFalse hMore =>
      rcases List.mem_append.mp hMem with hFront | hLast
      · exact ih (n / 16) (by omega) hFront
      · exact ⟨n % 16, by omega, List.mem_singleton.mp hLast⟩

theorem ne_brace_of_mem_hex {n : Nat} {c : Char} (hMem : c ∈ hex n) : c ≠ '\x7d' := by
  obtain ⟨d, hDigit, rfl⟩ := exists_hexDigit_of_mem_hex hMem
  have hAll : ∀ d < 16, hexDigit d ≠ '\x7d' := by decide
  exact hAll d hDigit

theorem not_isBlank_of_mem_hex {n : Nat} {c : Char} (hMem : c ∈ hex n) : isBlank c = false := by
  obtain ⟨d, hDigit, rfl⟩ := exists_hexDigit_of_mem_hex hMem
  have hAll : ∀ d < 16, isBlank (hexDigit d) = false := by decide
  exact hAll d hDigit

-- ---------------------------------------------------------------------------
-- Quoted texts
-- ---------------------------------------------------------------------------

/-- The character that a quoted text goes on with, and what comes after it; nothing
where the text ends. -/
def unquoteChar? : List Char → Option (Char × List Char)
  | '\\' :: '0' :: rest => some ('\x00', rest)
  | '\\' :: 't' :: rest => some ('\t', rest)
  | '\\' :: 'r' :: rest => some ('\r', rest)
  | '\\' :: 'n' :: rest => some ('\n', rest)
  | '\\' :: 'u' :: _ :: rest =>
    (readDigits hexDigit? 16 (rest.takeWhile (· ≠ '\x7d'))).map fun n =>
      (Char.ofNat n, (rest.dropWhile (· ≠ '\x7d')).tail)
  | '\\' :: c :: rest => some (c, rest)
  | '"' :: _ => none
  | c :: rest => some (c, rest)
  | [] => none

/-- **A quoted character is read back**, whatever comes after it. -/
theorem unquoteChar?_quoteChar (c : Char) (rest : List Char) :
    unquoteChar? (quoteChar c ++ rest) = some (c, rest) := by
  unfold quoteChar
  split_ifs with hNul hTab hReturn hFeed hQuote hBackslash hHidden
  · rw [hNul]; rfl
  · rw [hTab]; rfl
  · rw [hReturn]; rfl
  · rw [hFeed]; rfl
  · rw [hQuote]; rfl
  · rw [hBackslash]; rfl
  · have hDigits : ∀ d ∈ hex c.toNat, decide (d ≠ '\x7d') = true := fun d hd =>
      decide_eq_true (ne_brace_of_mem_hex hd)
    have hText : ['\\', 'u', '\x7b'] ++ hex c.toNat ++ ['\x7d'] ++ rest =
        '\\' :: 'u' :: '\x7b' :: (hex c.toNat ++ '\x7d' :: rest) := by simp
    rw [hText, unquoteChar?, List.takeWhile_append_of_pos hDigits,
      List.dropWhile_append_of_pos hDigits]
    simp [readDigits_hex, Char.ofNat_toNat]
  · rw [List.singleton_append]
    unfold unquoteChar?
    split <;> simp_all

theorem quoteChar_append_inj {c d : Char} {rest rest' : List Char}
    (h : quoteChar c ++ rest = quoteChar d ++ rest') : c = d ∧ rest = rest' := by
  have hRead := unquoteChar?_quoteChar c rest
  rw [h, unquoteChar?_quoteChar] at hRead
  obtain ⟨rfl, rfl⟩ := Prod.mk.inj (Option.some.inj hRead)
  exact ⟨rfl, rfl⟩

/-- No character is quoted as something that begins with the closing quote. -/
theorem quoteChar_append_ne {c : Char} {rest rest' : List Char} :
    quoteChar c ++ rest ≠ '"' :: rest' := by
  intro h
  have hRead := unquoteChar?_quoteChar c rest
  rw [h] at hRead
  cases hRead

/-- A quoted text ends where its closing quote is. -/
theorem flatMap_quoteChar_inj {cs ds rest rest' : List Char}
    (h : cs.flatMap quoteChar ++ '"' :: rest = ds.flatMap quoteChar ++ '"' :: rest') :
    cs = ds ∧ rest = rest' := by
  induction cs generalizing ds with
  | nil =>
    cases ds with
    | nil => exact ⟨rfl, (List.cons.inj h).2⟩
    | cons d ds =>
      rw [List.flatMap_cons, List.append_assoc] at h
      exact absurd h.symm quoteChar_append_ne
  | cons c cs ih =>
    rw [List.flatMap_cons, List.append_assoc] at h
    cases ds with
    | nil => exact absurd h quoteChar_append_ne
    | cons d ds =>
      rw [List.flatMap_cons, List.append_assoc] at h
      obtain ⟨rfl, hLater⟩ := quoteChar_append_inj h
      obtain ⟨rfl, rfl⟩ := ih hLater
      exact ⟨rfl, rfl⟩

theorem toList_quoted (s : String) :
    (quoted s).toList = '"' :: s.toList.flatMap quoteChar ++ ['"'] := by
  rw [quoted, String.toList_ofList]

-- ---------------------------------------------------------------------------
-- White space
-- ---------------------------------------------------------------------------

/-- The runs of unprintable characters that hold white space. -/
theorem blank_runs : ∀ run ∈ [(0x0, 0x1f), (0x7f, 0xa0), (0x1680, 0x1680), (0x1fff, 0x200f),
    (0x2028, 0x202f), (0x205f, 0x206f), (0x3000, 0x3000)], run ∈ unprintableRuns := by
  decide +kernel

/-- **Of all white space only the space is printable.** -/
theorem isUnprintable_of_isBlank {c : Char} (hBlank : isBlank c = true) (hSpace : c ≠ ' ') :
    isUnprintable c = true := by
  have hCode : c.toNat ≠ 0x20 := fun h => hSpace (Char.toNat_inj.mp h)
  simp only [isBlank, Bool.or_eq_true, Bool.and_eq_true, decide_eq_true_eq, beq_iff_eq] at hBlank
  obtain ⟨run, hRun, hFirst, hLast⟩ : ∃ run ∈ [(0x0, 0x1f), (0x7f, 0xa0), (0x1680, 0x1680),
      (0x1fff, 0x200f), (0x2028, 0x202f), (0x205f, 0x206f), (0x3000, 0x3000)],
      run.1 ≤ c.toNat ∧ c.toNat ≤ run.2 := by
    simp only [List.exists_mem_cons_iff, List.not_mem_nil, false_and, exists_const, or_false]
    omega
  exact List.any_eq_true.mpr ⟨run, blank_runs run hRun, by simp [hFirst, hLast]⟩

/-- What stands for a character has no white space but the space. -/
theorem eq_space_of_mem_quoteChar {c d : Char} (hMem : d ∈ quoteChar c)
    (hBlank : isBlank d = true) : d = ' ' := by
  have hPlain : ∀ e ∈ ['\\', '0', 't', 'r', 'n', '"', 'u', '\x7b', '\x7d'], isBlank e = false := by
    simp [isBlank]
  by_contra hSpace
  have hNot : ∀ e ∈ ['\\', '0', 't', 'r', 'n', '"', 'u', '\x7b', '\x7d'], d ≠ e := by
    rintro e he rfl
    rw [hPlain d he] at hBlank
    cases hBlank
  have hDigit : d ∉ hex c.toNat := fun hHex => by
    rw [not_isBlank_of_mem_hex hHex] at hBlank
    cases hBlank
  have hHidden := isUnprintable_of_isBlank hBlank hSpace
  simp only [List.forall_mem_cons] at hNot
  unfold quoteChar at hMem
  split_ifs at hMem <;> simp_all

theorem eq_space_of_mem_quoted {s : String} {c : Char} (hMem : c ∈ (quoted s).toList)
    (hBlank : isBlank c = true) : c = ' ' := by
  rw [toList_quoted, List.mem_append, List.mem_cons, List.mem_flatMap, List.mem_singleton] at hMem
  rcases hMem with (rfl | ⟨d, -, hd⟩) | rfl
  · cases hBlank
  · exact eq_space_of_mem_quoteChar hd hBlank
  · cases hBlank

end Text

-- ---------------------------------------------------------------------------
-- Arguments
-- ---------------------------------------------------------------------------

namespace Action

variable {a b : String} {rest rest' : List Char}

/-- Whether an argument is shown in quotes. -/
def isQuoted (arg : String) : Bool := arg.isEmpty || Text.hasBlank arg

/-- An argument that is shown as it is does not begin like one in quotes. -/
def Recognized (arg : String) : Prop := isQuoted arg = false → arg.toList.head? ≠ some '"'

/-- All arguments can be told by how they begin. -/
def Legible (action : Action) : Prop := ∀ arg ∈ action.args, Recognized arg

/-- What can come after an argument: a space, or nothing. -/
def Apart (rest : List Char) : Prop := ∀ c ∈ rest.head?, c = ' '

theorem toList_shownArg (arg : String) : (shownArg arg).toList =
    if isQuoted arg then '"' :: arg.toList.flatMap Text.quoteChar ++ ['"'] else arg.toList := by
  unfold shownArg isQuoted
  split
  · rw [Text.toList_quoted]
  · rfl

theorem toList_shownArg_of_quoted (hQuoted : isQuoted a = true) (rest : List Char) :
    (shownArg a).toList ++ rest = '"' :: (a.toList.flatMap Text.quoteChar ++ '"' :: rest) := by
  rw [toList_shownArg, if_pos hQuoted]
  simp

theorem toList_shownArg_of_bare (hBare : isQuoted a = false) : (shownArg a).toList = a.toList := by
  rw [toList_shownArg, hBare]
  rfl

theorem not_isBlank_of_bare (hBare : isQuoted a = false) {c : Char} (hMem : c ∈ a.toList) :
    Text.isBlank c = false := by
  unfold isQuoted at hBare
  simp only [Bool.or_eq_false_iff, Text.hasBlank, List.any_eq_false] at hBare
  simpa using hBare.2 c hMem

theorem head?_of_bare (hBare : isQuoted a = false) (rest : List Char) :
    ((shownArg a).toList ++ rest).head? = a.toList.head? := by
  have hSome : a.toList ≠ [] := by
    rintro hEmpty
    obtain rfl : a = "" := String.toList_inj.mp hEmpty
    cases hBare
  rw [toList_shownArg_of_bare hBare, List.head?_append_of_ne_nil _ hSome]

/-- An argument that is shown as it is ends where the first space is. -/
theorem takeWhile_of_bare (hBare : isQuoted a = false) (hApart : Apart rest) :
    ((shownArg a).toList ++ rest).takeWhile (· ≠ ' ') = a.toList := by
  have hWord : ∀ c ∈ a.toList, decide (c ≠ ' ') = true := by
    intro c hc
    refine decide_eq_true ?_
    rintro rfl
    exact absurd (not_isBlank_of_bare hBare hc) (by decide)
  have hEnd : rest.takeWhile (· ≠ ' ') = [] := by
    cases rest with
    | nil => rfl
    | cons c rest =>
      obtain rfl : c = ' ' := hApart c rfl
      rfl
  rw [toList_shownArg_of_bare hBare, List.takeWhile_append_of_pos hWord, hEnd, List.append_nil]

/-- A bare argument is not taken for one in quotes. -/
theorem shownArg_append_ne (hQuoted : isQuoted a = true) (hBare : isQuoted b = false)
    (hKnown : Recognized b) : (shownArg a).toList ++ rest ≠ (shownArg b).toList ++ rest' := by
  intro h
  have hHead := congrArg List.head? h
  rw [head?_of_bare hBare, toList_shownArg_of_quoted hQuoted, List.head?_cons] at hHead
  exact hKnown hBare hHead.symm

/-- **An argument is told from what comes after it.** -/
theorem shownArg_append_inj (hKnown : Recognized a) (hKnown' : Recognized b) (hApart : Apart rest)
    (hApart' : Apart rest') (h : (shownArg a).toList ++ rest = (shownArg b).toList ++ rest') :
    a = b ∧ rest = rest' := by
  cases hQuoted : isQuoted a with
  | true =>
    cases hQuoted' : isQuoted b with
    | true =>
      rw [toList_shownArg_of_quoted hQuoted, toList_shownArg_of_quoted hQuoted'] at h
      obtain ⟨hSame, hRest⟩ := Text.flatMap_quoteChar_inj (List.cons.inj h).2
      exact ⟨String.toList_inj.mp hSame, hRest⟩
    | false => exact absurd h (shownArg_append_ne hQuoted hQuoted' hKnown')
  | false =>
    cases hQuoted' : isQuoted b with
    | true => exact absurd h.symm (shownArg_append_ne hQuoted' hQuoted hKnown)
    | false =>
      have hWords := congrArg (List.takeWhile (· ≠ ' ')) h
      rw [takeWhile_of_bare hQuoted hApart, takeWhile_of_bare hQuoted' hApart'] at hWords
      obtain rfl := String.toList_inj.mp hWords
      exact ⟨rfl, List.append_cancel_left h⟩

theorem eq_space_of_mem_shownArg {arg : String} {c : Char} (hMem : c ∈ (shownArg arg).toList)
    (hBlank : Text.isBlank c = true) : c = ' ' := by
  cases hQuoted : isQuoted arg with
  | true =>
    rw [toList_shownArg, if_pos hQuoted, ← Text.toList_quoted] at hMem
    exact Text.eq_space_of_mem_quoted hMem hBlank
  | false =>
    rw [toList_shownArg_of_bare hQuoted] at hMem
    rw [not_isBlank_of_bare hQuoted hMem] at hBlank
    cases hBlank

-- ---------------------------------------------------------------------------
-- Command lines
-- ---------------------------------------------------------------------------

/-- Arguments as they stand behind a command, a space before each. -/
def shownArgs (args : List String) : List Char :=
  args.flatMap fun arg => ' ' :: (shownArg arg).toList

theorem apart_shownArgs (args : List String) : Apart (shownArgs args) := by
  cases args with
  | nil => simp [Apart, shownArgs]
  | cons arg rest => simp [Apart, shownArgs]

theorem toList_line (action : Action) :
    action.line.toList = action.command.toList ++ shownArgs action.args := by
  obtain ⟨command, args⟩ := action
  unfold line shownArgs
  dsimp only
  induction args generalizing command with
  | nil => simp
  | cons arg rest ih =>
    rw [List.foldl_cons, ih]
    simp

theorem shownArgs_inj {args others : List String} (hKnown : ∀ arg ∈ args, Recognized arg)
    (hKnown' : ∀ arg ∈ others, Recognized arg) (h : shownArgs args = shownArgs others) :
    args = others := by
  induction args generalizing others with
  | nil =>
    cases others with
    | nil => rfl
    | cons b others => cases h
  | cons a args ih =>
    cases others with
    | nil => cases h
    | cons b others =>
      obtain ⟨hFirst, hRest⟩ := List.forall_mem_cons.mp hKnown
      obtain ⟨hFirst', hRest'⟩ := List.forall_mem_cons.mp hKnown'
      obtain ⟨rfl, hLater⟩ := shownArg_append_inj hFirst hFirst' (apart_shownArgs args)
        (apart_shownArgs others) (List.cons.inj h).2
      rw [ih hRest hRest' hLater]

theorem eq_space_of_mem_shownArgs {args : List String} {c : Char} (hMem : c ∈ shownArgs args)
    (hBlank : Text.isBlank c = true) : c = ' ' := by
  obtain ⟨arg, -, hMem⟩ := List.mem_flatMap.mp hMem
  rcases List.mem_cons.mp hMem with rfl | hArg
  · rfl
  · exact eq_space_of_mem_shownArg hArg hBlank

/-- **A command line tells its arguments.** Two lines of one command are the same
exactly if their arguments are, as long as no argument that is shown as it is begins
with a quote. Whatever the arguments, all white space behind the command is made of
spaces. -/
theorem line_keeps_arguments :
    (∀ a b : Action, a.command = b.command → a.Legible → b.Legible →
      (a.line = b.line ↔ a.args = b.args)) ∧
    ∀ a : Action, ∃ shown : List Char, a.line.toList = a.command.toList ++ shown ∧
      ∀ c ∈ shown, Text.isBlank c = true → c = ' ' := by
  refine ⟨fun a b hCommand hLegible hLegible' => ⟨fun hLine => ?_, fun hArgs => ?_⟩, fun a => ?_⟩
  · have hText := congrArg String.toList hLine
    rw [toList_line, toList_line, hCommand] at hText
    exact shownArgs_inj hLegible hLegible' (List.append_cancel_left hText)
  · obtain ⟨command, args⟩ := a
    obtain ⟨command', args'⟩ := b
    obtain rfl : command = command' := hCommand
    obtain rfl : args = args' := hArgs
    rfl
  · exact ⟨shownArgs a.args, toList_line a, fun c hMem => eq_space_of_mem_shownArgs hMem⟩

/-- One argument that holds quotes and spaces is not shown as two arguments are. -/
theorem line_keeps_arguments_quotes :
    Legible ⟨"sh", ["x \" \" y"]⟩ ∧ Legible ⟨"sh", ["x ", " y"]⟩ ∧
      line ⟨"sh", ["x \" \" y"]⟩ ≠ line ⟨"sh", ["x ", " y"]⟩ := by
  have hOne : Legible ⟨"sh", ["x \" \" y"]⟩ := by
    unfold Legible Recognized
    decide +kernel
  have hTwo : Legible ⟨"sh", ["x ", " y"]⟩ := by
    unfold Legible Recognized
    decide +kernel
  have hSame := line_keeps_arguments.1 ⟨"sh", ["x \" \" y"]⟩ ⟨"sh", ["x ", " y"]⟩ rfl hOne hTwo
  exact ⟨hOne, hTwo, hSame.not.mpr (by decide +kernel)⟩

/-- Arguments that begin or end with a quote can look like a single one. -/
example : line ⟨"sh", ["\"a", "b\""]⟩ = line ⟨"sh", ["a b"]⟩ := by decide +kernel

end Action

end TaskMill
