import TaskMill.Text.Unprintable
import TaskMill.Text.Digits
/-!
# TaskMill — quoted text

A text between double quotes, written so that it can be read on one line: quote
and backslash are escaped, a few controls have a letter of their own, and every
other unprintable character is given by its code point. The quote `'` is left
alone.
-/

namespace TaskMill.Text

/-- How one character is written inside a quoted text. -/
def quoteChar (c : Char) : List Char :=
  if c = '\x00' then ['\\', '0']
  else if c = '\t' then ['\\', 't']
  else if c = '\r' then ['\\', 'r']
  else if c = '\n' then ['\\', 'n']
  else if c = '"' then ['\\', '"']
  else if c = '\\' then ['\\', '\\']
  else if isUnprintable c then ['\\', 'u', '\x7b'] ++ hex c.toNat ++ ['\x7d']
  else [c]

/-- A text in quotes, escaped. -/
def quoted (s : String) : String :=
  String.ofList ('"' :: s.toList.flatMap quoteChar ++ ['"'])

end TaskMill.Text
