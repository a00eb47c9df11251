/-!
# TaskMill — lossy decoding

Bytes read as UTF-8 without ever failing: each longest run of bytes that begins
a character but does not finish it, and each byte that begins none, becomes one
replacement character `U+FFFD`.
-/

namespace TaskMill.Text

/-- What the first byte of a character announces: how many bytes follow, the
range of the first of them, and the value of its own payload bits. Nothing for
a byte that begins no character. -/
def leadByte? (b : UInt8) : Option (Nat × UInt8 × UInt8 × Nat) :=
  if b < 0x80 then some (0, 0x80, 0xBF, b.toNat)
  else if b < 0xC2 then none
  else if b < 0xE0 then some (1, 0x80, 0xBF, b.toNat - 0xC0)
  else if b = 0xE0 then some (2, 0xA0, 0xBF, 0)
  else if b = 0xED then some (2, 0x80, 0x9F, 13)
  else if b < 0xF0 then some (2, 0x80, 0xBF, b.toNat - 0xE0)
  else if b = 0xF0 then some (3, 0x90, 0xBF, 0)
  else if b < 0xF4 then some (3, 0x80, 0xBF, b.toNat - 0xF0)
  else if b = 0xF4 then some (3, 0x80, 0x8F, 4)
  else none

/-- A decoder between two bytes: how many bytes the current character still
needs, the range of the next one, and the value so far. No bytes needed means
that the decoder stands between characters. -/
structure Utf8State where
  needed : Nat
  low : UInt8
  high : UInt8
  value : Nat

/-- The state between two characters. -/
def Utf8State.start : Utf8State := ⟨0, 0x80, 0xBF, 0⟩

/-- What a byte adds when it begins a character, and the state after it. -/
def Utf8State.enter (b : UInt8) : List Char × Utf8State :=
  match leadByte? b with
  | none => (['\uFFFD'], .start)
  | some (0, _, _, n) => ([Char.ofNat n], .start)
  | some (needed, low, high, n) => ([], ⟨needed, low, high, n⟩)

/-- What a byte adds to the text, and the state after it. -/
def Utf8State.step (st : Utf8State) (b : UInt8) : List Char × Utf8State :=
  if st.needed = 0 then Utf8State.enter b
  else if st.low ≤ b ∧ b ≤ st.high then
    let value := st.value * 64 + (b.toNat - 0x80)
    if st.needed = 1 then ([Char.ofNat value], .start)
    else ([], ⟨st.needed - 1, 0x80, 0xBF, value⟩)
  else
    let (added, next) := Utf8State.enter b
    ('\uFFFD' :: added, next)

/-- The characters of a list of bytes, read from the state `st` on. -/
def decodeLossyFrom (st : Utf8State) : List UInt8 → List Char
  | [] => if st.needed = 0 then [] else ['\uFFFD']
  | b :: rest => (st.step b).1 ++ decodeLossyFrom (st.step b).2 rest

/-- Bytes as text, with `U+FFFD` for all that is not UTF-8. -/
def decodeLossy (bytes : List UInt8) : String :=
  String.ofList (decodeLossyFrom .start bytes)

/-- The text of bytes that are valid UTF-8. -/
def decode? (bytes : List UInt8) : Option String :=
  String.fromUTF8? ⟨bytes.toArray⟩

/-- The bytes of a text. -/
def encode (s : String) : List UInt8 :=
  s.toUTF8.data.toList

end TaskMill.Text
