/-!
# TaskMill — lines

A text, or the bytes a process wrote, cut into lines. Each line ends at a line
feed; one carriage return just before the feed goes with it; what follows the
last feed is a line of its own unless it is empty, and keeps its carriage
returns.
-/

namespace TaskMill.Text

/-- A line held in reverse, closed by a line feed: one carriage return at its
end is dropped. -/
def closeLine {α : Type} [DecidableEq α] (ret : α) : List α → List α
  | [] => []
  | c :: line => if c = ret then line.reverse else (c :: line).reverse

/-- The lines of `s`, where `line` holds, in reverse, what the current line has
so far. -/
def cutLinesFrom {α : Type} [DecidableEq α] (feed ret : α) : List α → List α → List (List α)
  | [], [] => []
  | line, [] => [line.reverse]
  | line, c :: s =>
    if c = feed then closeLine ret line :: cutLinesFrom feed ret [] s
    else cutLinesFrom feed ret (c :: line) s

/-- The lines of a list of symbols in which `feed` ends a line and one `ret`
before it goes with it. -/
def cutLines {α : Type} [DecidableEq α] (feed ret : α) (s : List α) : List (List α) :=
  cutLinesFrom feed ret [] s

/-- The lines of a text. -/
def lines (s : String) : List String :=
  (cutLines '\n' '\r' s.toList).map String.ofList

/-- The lines of a stream of bytes, up to the first line that is not valid
UTF-8; from there on the stream is not read. -/
def linesOfBytes (bytes : List UInt8) : List String :=
  ((cutLines (10 : UInt8) 13 bytes).map fun line => String.fromUTF8? ⟨line.toArray⟩).takeWhile
    Option.isSome |>.filterMap id

end TaskMill.Text
