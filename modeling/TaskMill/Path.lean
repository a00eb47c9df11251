/-!
# TaskMill — paths

A path is the text it was given as; nothing is normalised away when it is shown
or joined. Only its ancestors look at its components: a component is what
stands between slashes, where empty components and every `.` but a leading one
count for nothing.
-/

namespace TaskMill

/-- A path, as it was written. -/
structure Path where
  /-- The path's text. -/
  text : String
  deriving DecidableEq, Inhabited

namespace Path

/-- Whether the path starts at the root. -/
def isAbsolute (p : Path) : Bool :=
  p.text.toList.head? = some '/'

/-- The path `p` seen from the directory `base`: an absolute `p` stands for
itself, any other is put after `base`, with a slash between them unless `base`
is empty or ends in one. -/
def join (base p : Path) : Path :=
  if p.isAbsolute then p
  else if base.text.toList.getLast?.all (· = '/') then ⟨base.text ++ p.text⟩
  else ⟨base.text ++ "/" ++ p.text⟩

-- ---------------------------------------------------------------------------
-- Ancestors
-- ---------------------------------------------------------------------------

/-- The segments of a text between its slashes. -/
def segments : List Char → List (List Char)
  | [] => [[]]
  | c :: cs =>
    if c = '/' then [] :: segments cs
    else match segments cs with
      | [] => [[c]]
      | first :: rest => (c :: first) :: rest

/-- Whether a segment counts for nothing. -/
def isVoid (segment : List Char) : Bool :=
  segment = [] || segment = ['.']

/-- What a path starts with: the root, a leading `.`, or nothing; and what
follows. -/
def splitStart : List Char → List Char × List Char
  | '/' :: rest => (['/'], rest)
  | ['.'] => (['.'], [])
  | '.' :: '/' :: rest => (['.'], '/' :: rest)
  | cs => ([], cs)

/-- The ancestors of a path with start `start` and, last one first, the segments
given: each component taken off leaves one. A leading `.` leaves the empty
path, the root leaves nothing. -/
def ancestorsOf (start : List Char) : List (List Char) → List Path
  | [] => if start = ['.'] then [⟨""⟩] else []
  | segment :: above =>
    if isVoid segment then ancestorsOf start above
    else
      let left := (above.dropWhile isVoid).reverse
      ⟨String.ofList (start ++ ['/'].intercalate left)⟩ :: ancestorsOf start above

/-- The path itself, its parent, the parent's parent and so on. -/
def ancestors (p : Path) : List Path :=
  let (start, body) := splitStart p.text.toList
  p :: ancestorsOf start (segments body).reverse

/-- The path without its last component; nothing for the root and for a path
without components. -/
def parent? (p : Path) : Option Path :=
  p.ancestors[1]?

end Path

end TaskMill
