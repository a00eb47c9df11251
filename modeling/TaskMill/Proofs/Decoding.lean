import Mathlib.Data.List.Basic
import TaskMill.Proofs.Lines
/-!
# TaskMill — lossy decoding keeps what is UTF-8

Lossy decoding reads one byte after the other and never fails. On the bytes of a
text it goes through the characters in turn: the first byte of each tells how
many are to follow and in which range the next one lies, and every byte after it
adds six bits. So what is valid is left as it is, and only what is not becomes
`U+FFFD`.

## Results

* `decodeLossyFrom_char` — the bytes of a character are read as the character.
* `decodeLossy_of_decode?` — what can be decoded is decoded to the same text.
-/

namespace TaskMill.Text

-- ---------------------------------------------------------------------------
-- Bytes of characters
-- ---------------------------------------------------------------------------

theorem leadByte?_one : ∀ n < 128, leadByte? (UInt8.ofNat n) = some (0, 0x80, 0xBF, n) := by
  decide

/-- The first byte of two; with less payload, one byte would do. -/
theorem leadByte?_two : ∀ n < 30,
    leadByte? (UInt8.ofNat (n + 2 + 192)) = some (1, 0x80, 0xBF, n + 2) := by
  decide

/-- The first byte of three, with the range that keeps out what two bytes can
hold, and the surrogates. -/
theorem leadByte?_three : ∀ n < 16, leadByte? (UInt8.ofNat (n + 224)) =
    some (2, if n = 0 then 0xA0 else 0x80, if n = 13 then 0x9F else 0xBF, n) := by
  decide

/-- The first byte of four, with the range that keeps out what three bytes can
hold, and what is beyond the last character. -/
theorem leadByte?_four : ∀ n < 5, leadByte? (UInt8.ofNat (n + 240)) =
    some (3, if n = 0 then 0x90 else 0x80, if n = 4 then 0x8F else 0xBF, n) := by
  decide

theorem toNat_tail {k : Nat} (hk : k < 64) : (UInt8.ofNat (k + 128)).toNat = k + 128 := by
  show (k + 128) % 256 = k + 128
  omega

theorem tail_le {k : Nat} (hk : k < 64) {low high : UInt8} (hLow : low.toNat ≤ k + 128)
    (hHigh : k + 128 ≤ high.toNat) :
    low ≤ UInt8.ofNat (k + 128) ∧ UInt8.ofNat (k + 128) ≤ high := by
  rw [UInt8.le_iff_toNat_le, UInt8.le_iff_toNat_le, toNat_tail hk]
  exact ⟨hLow, hHigh⟩

-- ---------------------------------------------------------------------------
-- One byte at a time
-- ---------------------------------------------------------------------------

section Steps

variable {needed k value : Nat} {low high : UInt8} {rest : List UInt8}

theorem decodeLossyFrom_lead {b : UInt8}
    (hLead : leadByte? b = some (needed + 1, low, high, value)) :
    decodeLossyFrom .start (b :: rest) = decodeLossyFrom ⟨needed + 1, low, high, value⟩ rest := by
  have hStep : Utf8State.step .start b = ([], ⟨needed + 1, low, high, value⟩) := by
    show Utf8State.enter b = _
    unfold Utf8State.enter
    rw [hLead]
    rfl
  rw [decodeLossyFrom, hStep]
  rfl

variable (hk : k < 64) (hLow : low.toNat ≤ k + 128) (hHigh : k + 128 ≤ high.toNat)

include hk hLow hHigh

/-- A byte that is not the last one of its character adds six bits. -/
theorem decodeLossyFrom_between :
    decodeLossyFrom ⟨needed + 2, low, high, value⟩ (UInt8.ofNat (k + 128) :: rest) =
      decodeLossyFrom ⟨needed + 1, 0x80, 0xBF, value * 64 + k⟩ rest := by
  have hStep : Utf8State.step ⟨needed + 2, low, high, value⟩ (UInt8.ofNat (k + 128)) =
      ([], ⟨needed + 1, 0x80, 0xBF, value * 64 + k⟩) := by
    unfold Utf8State.step
    rw [if_neg (Nat.succ_ne_zero _), if_pos (tail_le hk hLow hHigh), toNat_tail hk]
    simp
  rw [decodeLossyFrom, hStep]
  rfl

/-- The last byte of a character completes it. -/
theorem decodeLossyFrom_last :
    decodeLossyFrom ⟨1, low, high, value⟩ (UInt8.ofNat (k + 128) :: rest) =
      Char.ofNat (value * 64 + k) :: decodeLossyFrom .start rest := by
  have hStep : Utf8State.step ⟨1, low, high, value⟩ (UInt8.ofNat (k + 128)) =
      ([Char.ofNat (value * 64 + k)], .start) := by
    unfold Utf8State.step
    rw [if_neg Nat.one_ne_zero, if_pos (tail_le hk hLow hHigh), toNat_tail hk]
    simp
  rw [decodeLossyFrom, hStep]
  rfl

end Steps

-- ---------------------------------------------------------------------------
-- One character at a time
-- ---------------------------------------------------------------------------

/-- The numbers of characters: below the surrogates, or above them. -/
theorem toNat_ranges (c : Char) : c.val.toNat < 0xD800 ∨ 0xE000 ≤ c.val.toNat ∧
    c.val.toNat < 0x110000 := by
  rcases c.valid with h | ⟨h, h'⟩
  · exact .inl h
  · exact .inr ⟨h, h'⟩

theorem decodeLossyFrom_char (c : Char) (rest : List UInt8) :
    decodeLossyFrom .start (String.utf8EncodeChar c ++ rest) =
      c :: decodeLossyFrom .start rest := by
  have hRanges := toNat_ranges c
  have hChar : Char.ofNat c.val.toNat = c := Char.ofNat_toNat c
  unfold String.utf8EncodeChar
  generalize c.val.toNat = v at hRanges hChar ⊢
  dsimp only
  -- by the number of bytes
  split
  case isTrue hOne =>
    have hStep : Utf8State.step .start (UInt8.ofNat v) = ([c], .start) := by
      show Utf8State.enter (UInt8.ofNat v) = _
      unfold Utf8State.enter
      rw [leadByte?_one v (by omega)]
      simp [hChar]
    rw [List.singleton_append, decodeLossyFrom, hStep]
    rfl
  case isFalse hOne =>
    split
    case isTrue hTwo =>
      obtain ⟨n, hn⟩ : ∃ n, v / 64 % 32 = n + 2 := ⟨v / 64 % 32 - 2, by omega⟩
      have hLead := leadByte?_two n (by omega)
      rw [hn, List.cons_append, List.singleton_append, decodeLossyFrom_lead hLead,
        decodeLossyFrom_last (by omega) (by simp) (by simp; omega)]
      rw [← hChar]
      congr 2
      omega
    case isFalse hTwo =>
      split
      case isTrue hThree =>
        have hLead := leadByte?_three (v / 4096 % 16) (by omega)
        rw [List.cons_append, List.cons_append, List.singleton_append, decodeLossyFrom_lead hLead,
          decodeLossyFrom_between (by omega) _ _, decodeLossyFrom_last (by omega) (by simp)
            (by simp; omega)]
        · rw [← hChar]
          congr 2
          omega
        · split
          · simp; omega
          · simp
        · split
          · simp; omega
          · simp; omega
      case isFalse hThree =>
        have hLead := leadByte?_four (v / 262144 % 8) (by omega)
        rw [List.cons_append, List.cons_append, List.cons_append, List.singleton_append,
          decodeLossyFrom_lead hLead, decodeLossyFrom_between (by omega) _ _,
          decodeLossyFrom_between (by omega) (by simp) (by simp; omega),
          decodeLossyFrom_last (by omega) (by simp) (by simp; omega)]
        · rw [← hChar]
          congr 2
          omega
        · split
          · simp; omega
          · simp
        · split
          · simp; omega
          · simp; omega

theorem decodeLossyFrom_chars (cs : List Char) :
    decodeLossyFrom .start (cs.flatMap String.utf8EncodeChar) = cs := by
  induction cs with
  | nil => rfl
  | cons c cs ih => rw [List.flatMap_cons, decodeLossyFrom_char, ih]

theorem encode_eq_flatMap (s : String) : encode s = s.toList.flatMap String.utf8EncodeChar := by
  have hBytes : s.toByteArray = s.toList.utf8Encode := by
    rw [← String.toByteArray_ofList, String.ofList_toList]
  show s.toByteArray.data.toList = _
  rw [hBytes]
  simp [List.utf8Encode]

theorem encode_of_decode? {bytes : List UInt8} {s : String} (h : decode? bytes = some s) :
    encode s = bytes := by
  unfold decode? String.fromUTF8? at h
  split at h
  case isFalse => cases h
  case isTrue hValid =>
    obtain rfl := Option.some.inj h
    rfl

/-- **What can be decoded is decoded to the same text.** -/
theorem decodeLossy_of_decode? {bytes : List UInt8} {s : String} (h : decode? bytes = some s) :
    decodeLossy bytes = s := by
  rw [← encode_of_decode? h, encode_eq_flatMap, decodeLossy, decodeLossyFrom_chars,
    String.ofList_toList]

end TaskMill.Text
