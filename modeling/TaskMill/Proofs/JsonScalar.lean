import Mathlib.Data.List.Basic
import Mathlib.Data.List.TakeDrop
import Mathlib.Data.List.TakeWhile
import TaskMill.Json.Reader
/-!
# TaskMill — JSON scalars are read back

The text of an integer is read as that integer, and the text of a string as that
string, whatever characters it holds: a character is written in one of three ways
(`Escaped`), and each of them is read as that character. None of these texts holds
a control character (`Clean`), so none holds a line break.

## Results

* `scalar?_toString` — an integer is read back.
* `readString_stringText` — a string is read back, up to its closing quote.
* `clean_toString`, `clean_stringText` — their texts hold no control characters.
-/

namespace TaskMill

-- ---------------------------------------------------------------------------
-- Digits
-- ---------------------------------------------------------------------------

namespace Text

theorem decimalDigit?_digitChar : ∀ d < 10, decimalDigit? (Nat.digitChar d) = some d := by decide

theorem hexDigit?_hexDigit : ∀ d < 16, hexDigit? (hexDigit d) = some d := by decide

/-- The decimal digits of a number denote it. -/
theorem readDigits_toDigits (n : Nat) :
    readDigits decimalDigit? 10 (Nat.toDigits 10 n) = some n := by
  induction n using Nat.strongRecOn with
  | ind n ih =>
    rw [Nat.toDigits_eq_if (by decide)]
    split
    case isTrue hDigit => simp [readDigits, decimalDigit?_digitChar n hDigit]
    case isFalse hMore =>
      have hFront := ih (n / 10) (by omega)
      have hLast := decimalDigit?_digitChar (n % 10) (by omega)
      rw [readDigits] at hFront
      rw [readDigits, List.foldlM_append, hFront]
      simp only [List.foldlM_cons, List.foldlM_nil, hLast, Option.bind_eq_bind, Option.bind_some,
        Option.map_some, Option.pure_def]
      congr 1
      omega

theorem readDecimal?_toDigits (n : Nat) : readDecimal? (Nat.toDigits 10 n) = some n := by
  have hSome : (Nat.toDigits 10 n).isEmpty = false := by simp
  rw [readDecimal?, readDigits_toDigits, hSome]
  rfl

theorem head?_toDigits {n : Nat} (hPos : 0 < n) : (Nat.toDigits 10 n).head? ≠ some '0' := by
  induction n using Nat.strongRecOn with
  | ind n ih =>
    rw [Nat.toDigits_eq_if (by decide)]
    split
    case isTrue hDigit =>
      have hAll : ∀ d < 10, 0 < d → Nat.digitChar d ≠ '0' := by decide
      simpa using hAll n hDigit hPos
    case isFalse hMore =>
      have hFront := ih (n / 10) (by omega) (by omega)
      rwa [List.head?_append_of_ne_nil _ Nat.toDigits_ne_nil]

/-- Only zero begins with a zero, and it has no other digit. -/
theorem no_leading_zero (n : Nat) :
    ¬ ((Nat.toDigits 10 n).length > 1 ∧ (Nat.toDigits 10 n).head? = some '0') := by
  rintro ⟨hLong, hZero⟩
  rcases Nat.eq_zero_or_pos n with rfl | hPos
  · simp at hLong
  · exact head?_toDigits hPos hZero

theorem hexPadded_four (n : Nat) : hexPadded 4 n = [hexDigit (n / 4096 % 16),
    hexDigit (n / 256 % 16), hexDigit (n / 16 % 16), hexDigit (n % 16)] := by
  simp [hexPadded, Nat.div_div_eq_div_mul]

end Text

namespace Json

-- ---------------------------------------------------------------------------
-- Integers
-- ---------------------------------------------------------------------------

theorem isDigit_of_mem_toDigits {n : Nat} {c : Char} (hMem : c ∈ Nat.toDigits 10 n) :
    c.isDigit = true :=
  Nat.isDigit_of_mem_toDigits (by decide) (by decide) hMem

theorem digits?_toDigits (n : Nat) :
    digits? (Nat.toDigits 10 n) = some (Nat.toDigits 10 n, []) := by
  have hAll : ∀ c ∈ Nat.toDigits 10 n, c.isDigit = true := fun _ => isDigit_of_mem_toDigits
  rw [digits?, List.span_eq_takeWhile_dropWhile, List.takeWhile_eq_self_iff.mpr hAll,
    List.dropWhile_eq_nil_iff.mpr hAll]
  cases hDigits : Nat.toDigits 10 n with
  | nil => exact absurd hDigits Nat.toDigits_ne_nil
  | cons first rest => rfl

/-- The text of an integer: its digits, after a sign if it is negative. -/
theorem toList_toString (n : Int) : (toString n).toList =
    if 0 ≤ n then Nat.toDigits 10 n.natAbs else '-' :: Nat.toDigits 10 n.natAbs := by
  cases n with
  | ofNat m =>
    have hText : toString (Int.ofNat m) = Nat.repr m := rfl
    have hSign : 0 ≤ Int.ofNat m := Int.natCast_nonneg m
    rw [hText, Nat.repr_eq_ofList_toDigits, String.toList_ofList, if_pos hSign]
    rfl
  | negSucc m =>
    have hText : toString (Int.negSucc m) = "-" ++ Nat.repr (m + 1) := rfl
    have hSign : ¬ 0 ≤ Int.negSucc m := Int.not_le.mpr (Int.negSucc_lt_zero m)
    rw [hText, Nat.repr_eq_ofList_toDigits, String.toList_append, String.toList_ofList,
      if_neg hSign]
    simp

/-- What begins with a digit or a minus is none of the words. -/
theorem ne_words {first : Char} (hFirst : first.isDigit = true ∨ first = '-') (rest : List Char) :
    first :: rest ≠ "null".toList ∧ first :: rest ≠ "true".toList ∧
      first :: rest ≠ "false".toList := by
  refine ⟨?_, ?_, ?_⟩ <;>
  · intro hSame
    obtain ⟨rfl, -⟩ := List.cons.inj hSame
    revert hFirst
    decide

theorem scalar?_toDigits (n : Nat) : scalar? (Nat.toDigits 10 n) = some (int n) := by
  obtain ⟨first, rest, hDigits⟩ :=
    List.exists_cons_of_ne_nil (Nat.toDigits_ne_nil (n := n) (b := 10))
  have hFirst : first.isDigit = true := isDigit_of_mem_toDigits (n := n) (by simp [hDigits])
  obtain ⟨hNull, hTrue, hFalse⟩ := ne_words (.inl hFirst) rest
  rw [← hDigits] at hNull hTrue hFalse
  -- no digit is a minus, so there is no sign
  have hSign : ∀ r, Nat.toDigits 10 n = '-' :: r → False := by
    intro r hMinus
    obtain ⟨rfl, -⟩ := List.cons.inj (hDigits.symm.trans hMinus)
    revert hFirst
    decide
  rw [scalar?, if_neg hNull, if_neg hTrue, if_neg hFalse]
  · simp only [digits?_toDigits, Text.readDecimal?_toDigits, if_neg (Text.no_leading_zero n)]
    simp
  · exact hSign

theorem scalar?_minus_toDigits {n : Nat} (hPos : 0 < n) :
    scalar? ('-' :: Nat.toDigits 10 n) = some (int (-(n : Int))) := by
  obtain ⟨hNull, hTrue, hFalse⟩ := ne_words (.inr rfl) (Nat.toDigits 10 n)
  have hZero : Nat.toDigits 10 n ≠ ['0'] := by
    intro hSame
    exact Text.head?_toDigits hPos (by rw [hSame]; rfl)
  rw [scalar?, if_neg hNull, if_neg hTrue, if_neg hFalse]
  simp only [digits?_toDigits, Text.readDecimal?_toDigits, if_neg (Text.no_leading_zero n)]
  simp [hZero]

/-- **An integer is read back.** -/
theorem scalar?_toString (n : Int) : scalar? (toString n).toList = some (int n) := by
  rw [toList_toString]
  split
  case isTrue hSign => rw [scalar?_toDigits, Int.natAbs_of_nonneg hSign]
  case isFalse hSign =>
    rw [scalar?_minus_toDigits (by omega)]
    congr 2
    omega

theorem toString_ne_nil (n : Int) : (toString n).toList ≠ [] := by
  rw [toList_toString]
  split
  · exact Nat.toDigits_ne_nil
  · simp

theorem isWordChar_toString (n : Int) : ∀ c ∈ (toString n).toList, isWordChar c = true := by
  have hDigits : ∀ c ∈ Nat.toDigits 10 n.natAbs, isWordChar c = true := by
    intro c hc
    have hDigit : c.isDigit = true := isDigit_of_mem_toDigits hc
    simp [isWordChar, Char.isAlphanum, hDigit]
  rw [toList_toString]
  split
  · exact hDigits
  · exact List.forall_mem_cons.mpr ⟨rfl, hDigits⟩

-- ---------------------------------------------------------------------------
-- Strings
-- ---------------------------------------------------------------------------

theorem hex4?_hexPadded {n : Nat} (hSmall : n < 65536) :
    ∃ a b c d, Text.hexPadded 4 n = [a, b, c, d] ∧ hex4? a b c d = some n := by
  refine ⟨_, _, _, _, Text.hexPadded_four n, ?_⟩
  have hDigit (k : Nat) : Text.hexDigit? (Text.hexDigit (k % 16)) = some (k % 16) :=
    Text.hexDigit?_hexDigit _ (Nat.mod_lt _ (by decide))
  simp only [hex4?, Text.readDigits, List.foldlM_cons, List.foldlM_nil, hDigit, Option.map_some,
    Option.bind_eq_bind, Option.bind_some, Option.pure_def]
  congr 1
  omega

/-- How a character is written in a string: by a letter, by its number, or as it
is. -/
inductive Escaped (c : Char) : List Char → Prop
  | letter {name : Char} (hName : name ≠ 'u') (hMeans : letterEscape? name = some c) :
      Escaped c ['\\', name]
  | control (hControl : c.toNat < 0x20) : Escaped c (['\\', 'u'] ++ Text.hexPadded 4 c.toNat)
  | plain (hQuote : c ≠ '"') (hSlash : c ≠ '\\') (hPlain : 0x20 ≤ c.toNat) : Escaped c [c]

theorem escaped (c : Char) : Escaped c (escapeChar c) := by
  unfold escapeChar
  split
  case isTrue hQuote => exact .letter (by decide) (by rw [hQuote]; rfl)
  case isFalse hQuote =>
    split
    case isTrue hSlash => exact .letter (by decide) (by rw [hSlash]; rfl)
    case isFalse hSlash =>
      repeat (
        split
        case isTrue hWritten => first
          | exact .letter (by decide) (by rw [hWritten]; rfl)
          | exact .control hWritten)
      exact .plain hQuote hSlash (by omega)

theorem readString_escaped {c : Char} {text : List Char} (hEscaped : Escaped c text)
    (read rest : List Char) :
    readString ⟨read, none⟩ (text ++ rest) = readString ⟨c :: read, none⟩ rest := by
  cases hEscaped with
  | @letter name hName hMeans =>
    have hAdd : (letterEscape? name).bind (StringState.addChar? ⟨read, none⟩) =
        some ⟨c :: read, none⟩ := by rw [hMeans]; rfl
    rw [List.cons_append, List.singleton_append, readString, hAdd]
    intro _ _ _ _ _ hLetter
    exact absurd hLetter hName
  | control hControl =>
    obtain ⟨h1, h2, h3, h4, hDigits, hValue⟩ := hex4?_hexPadded (n := c.toNat) (by omega)
    have hUnit : (hex4? h1 h2 h3 h4).bind (StringState.addUnit? ⟨read, none⟩) =
        some ⟨c :: read, none⟩ := by
      -- a control is no half of a pair of units
      have hHigh : ¬ (0xD800 ≤ c.toNat ∧ c.toNat < 0xDC00) := by omega
      have hLow : ¬ (0xDC00 ≤ c.toNat ∧ c.toNat < 0xE000) := by omega
      rw [hValue, Option.bind_some, StringState.addUnit?, if_neg hHigh, if_neg hLow,
        Char.ofNat_toNat]
    simp only [hDigits, List.cons_append, List.nil_append, readString, hUnit]
  | plain hQuote hSlash hPlain =>
    have hKept : ¬ (c.toNat < 0x20 ∨ c = '\\') := by
      rintro (hLow | hSame)
      · omega
      · exact hSlash hSame
    rw [List.singleton_append, readString, if_neg hKept]
    · rfl
    · exact hQuote
    · intro _ _ _ _ _ hSame
      exact absurd hSame hSlash
    · intro _ _ hSame
      exact absurd hSame hSlash

/-- **A string is read back**, and what follows it is left. -/
theorem readString_stringText (s : String) (rest : List Char) :
    readString ⟨[], none⟩ (s.toList.flatMap escapeChar ++ '"' :: rest) = some (s, rest) := by
  have hRead : ∀ (cs read : List Char),
      readString ⟨read, none⟩ (cs.flatMap escapeChar ++ '"' :: rest) =
        some (String.ofList (read.reverse ++ cs), rest) := by
    intro cs
    induction cs with
    | nil => simp [readString]
    | cons c cs ih =>
      intro read
      rw [List.flatMap_cons, List.append_assoc, readString_escaped (escaped c), ih]
      simp
  simpa using hRead s.toList []

-- ---------------------------------------------------------------------------
-- Control characters
-- ---------------------------------------------------------------------------

/-- A text without control characters. -/
def Clean (cs : List Char) : Prop := ∀ c ∈ cs, 0x20 ≤ c.toNat

theorem clean_of_isWordChar {cs : List Char} (hWord : ∀ c ∈ cs, isWordChar c = true) :
    Clean cs := by
  intro c hc
  by_contra hControl
  have hNone : ∀ n < 0x20, isWordChar (Char.ofNat n) = false := by decide
  have hNot := hNone c.toNat (by omega)
  rw [Char.ofNat_toNat, hWord c hc] at hNot
  cases hNot

theorem clean_toString (n : Int) : Clean (toString n).toList :=
  clean_of_isWordChar (isWordChar_toString n)

theorem Escaped.clean {c : Char} {text : List Char} (hEscaped : Escaped c text) : Clean text := by
  cases hEscaped with
  | @letter name hName hMeans =>
    have hLetter : 0x20 ≤ name.toNat := by
      unfold letterEscape? at hMeans
      split at hMeans <;> first | decide | cases hMeans
    exact List.forall_mem_cons.mpr ⟨by decide, by simpa using hLetter⟩
  | control hControl =>
    have hDigit (k : Nat) : 0x20 ≤ (Text.hexDigit (k % 16)).toNat := by
      have hAll : ∀ d < 16, 0x20 ≤ (Text.hexDigit d).toNat := by decide
      exact hAll _ (Nat.mod_lt _ (by decide))
    rw [Text.hexPadded_four]
    simp [Clean, hDigit]
  | plain _ _ hPlain => simpa [Clean] using hPlain

theorem clean_stringText (s : String) : Clean (stringText s) := by
  intro c hc
  rw [stringText, List.cons_append, List.mem_cons, List.mem_append, List.mem_flatMap,
    List.mem_singleton] at hc
  rcases hc with rfl | ⟨d, -, hText⟩ | rfl
  · decide
  · exact (escaped d).clean c hText
  · decide

end Json

end TaskMill
