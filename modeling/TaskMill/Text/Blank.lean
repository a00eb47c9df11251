/-!
# TaskMill — blank characters

Which characters count as white space, and what a text looks like without the
white space at its end. The class is the Unicode property `White_Space`: the
tabs, line breaks and spaces, but neither the zero-width characters nor the
separators `U+001C` to `U+001F`.
-/

namespace TaskMill.Text

/-- The characters with the Unicode property `White_Space`. -/
def isBlank (c : Char) : Bool :=
  let n := c.toNat
  (0x09 ≤ n && n ≤ 0x0D) || n == 0x20 || n == 0x85 || n == 0xA0 || n == 0x1680
    || (0x2000 ≤ n && n ≤ 0x200A) || n == 0x2028 || n == 0x2029 || n == 0x202F
    || n == 0x205F || n == 0x3000

/-- Whether a text holds nothing but white space; the empty text does. -/
def isBlankText (s : String) : Bool :=
  s.toList.all isBlank

/-- Whether a text holds white space anywhere. -/
def hasBlank (s : String) : Bool :=
  s.toList.any isBlank

/-- A list of characters without the white space at its end. -/
def dropBlankEnd (cs : List Char) : List Char :=
  (cs.reverse.dropWhile isBlank).reverse

/-- A text without the white space at its end. -/
def trimEnd (s : String) : String :=
  String.ofList (dropBlankEnd s.toList)

/-- The empty text ends in no blank. -/
@[simp] theorem dropBlankEnd_nil : dropBlankEnd [] = [] := rfl

end TaskMill.Text
