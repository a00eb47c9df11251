import TaskMill.Path
import TaskMill.SystemError
import TaskMill.Text.Utf8
/-!
# TaskMill — files in memory

A tree of directories and files, kept as a table from **places** to what is
there. A place is the list of the names on the way from the root. Every entry
has the time at which it was modified last: a file when its bytes change, a
directory when an entry is added to it or taken from it.

A path leads to a place name by name. Each name on the way must be that of a
directory that may be searched; `.` stays and `..` goes back up, but only in what
exists.
-/

namespace TaskMill

/-- What an entry holds. -/
inductive Content where
  | directory
  | file (bytes : List UInt8)
  deriving DecidableEq, Inhabited

/-- What may be done with an entry. -/
structure Access where
  /-- A file may be read. -/
  read : Bool
  /-- A file may be written to; entries may be made in a directory and taken from
  it. -/
  write : Bool
  /-- What is in a directory may be looked for. -/
  search : Bool
  deriving DecidableEq, Inhabited

/-- Everything may be done. -/
def Access.full : Access := ⟨true, true, true⟩

/-- Something at a place. -/
structure FileEntry where
  content : Content
  /-- When the entry was modified last. -/
  modified : Int
  access : Access
  deriving DecidableEq, Inhabited

/-- How many bytes an entry takes up. -/
def FileEntry.size (e : FileEntry) : Nat :=
  match e.content with
  | .directory => 0
  | .file bytes => bytes.length

/-- Whether an entry is a directory. -/
def FileEntry.isDirectory (e : FileEntry) : Bool :=
  e.content = .directory

/-- A tree of directories and files. The root is the place without a name. -/
structure Files where
  entries : List (List String × FileEntry)
  /-- How many bytes all files together may take up; any number, if none is
  given. -/
  capacity : Option Nat
  deriving DecidableEq, Inhabited

/-- A path taken apart. -/
structure Route where
  isAbsolute : Bool
  /-- The names on the way, `.` and `..` included. -/
  names : List String
  /-- Whether the path ends in a slash, so that only a directory will do. -/
  toDirectory : Bool
  deriving DecidableEq, Inhabited

/-- How many bytes a path may have. -/
def Route.longestPath : Nat := 4095

/-- How many bytes a name may have. -/
def Route.longestName : Nat := 255

/-- The route that a path describes. -/
def Path.route (p : Path) : Except SystemError Route :=
  let cs := p.text.toList
  if '\x00' ∈ cs then .error .nulInPath
  else if cs.isEmpty then .error .notFound
  else if Route.longestPath < p.text.utf8ByteSize then .error .nameTooLong
  else .ok {
    isAbsolute := p.isAbsolute
    names := ((Path.segments cs).filter (· ≠ [])).map String.ofList
    toDirectory := cs.getLast? = some '/' }

namespace Files

/-- Nothing but the root, last modified when it was `born`. -/
def empty (born : Int) : Files := ⟨[([], ⟨.directory, born, .full⟩)], none⟩

/-- What is at a place. -/
def get? (fs : Files) (place : List String) : Option FileEntry :=
  fs.entries.lookup place

-- ---------------------------------------------------------------------------
-- Looking up
-- ---------------------------------------------------------------------------

/-- The place that a name leads to from a place. -/
def step (fs : Files) (place : List String) (name : String) :
    Except SystemError (List String) :=
  match fs.get? place with
  | none => .error .notFound
  | some entry =>
    if !entry.isDirectory then .error .notDirectory
    else if !entry.access.search then .error .denied
    else if name = "." then .ok place
    else if name = ".." then .ok place.dropLast
    else if Route.longestName < name.utf8ByteSize then .error .nameTooLong
    else .ok (place ++ [name])

/-- The place that names lead to from a place. -/
def follow (fs : Files) (place : List String) (names : List String) :
    Except SystemError (List String) :=
  names.foldlM fs.step place

/-- Where a route starts, seen from the working directory `home`. -/
def startOf (home : List String) (route : Route) : List String :=
  if route.isAbsolute then [] else home

/-- What a path names, seen from the working directory `home`, and its place. -/
def find (fs : Files) (home : List String) (p : Path) :
    Except SystemError (List String × FileEntry) := do
  let route ← p.route
  let place ← fs.follow (startOf home route) route.names
  match fs.get? place with
  | none => throw .notFound
  | some entry =>
    if route.toDirectory && !entry.isDirectory then throw .notDirectory
    return (place, entry)

/-- The directory that a path names. -/
def findDirectory (fs : Files) (home : List String) (p : Path) :
    Except SystemError (List String) := do
  let (place, entry) ← fs.find home p
  if entry.isDirectory then return place else throw .notDirectory

/-- When what a path names was modified last. -/
def modified (fs : Files) (home : List String) (p : Path) : Except SystemError Int :=
  (fs.find home p).map fun (_, entry) => entry.modified

/-- Whether a path names a file. -/
def isFile (fs : Files) (home : List String) (p : Path) : Bool :=
  match fs.find home p with
  | .ok (_, entry) => !entry.isDirectory
  | .error _ => false

/-- The text of a file. -/
def readText (fs : Files) (home : List String) (p : Path) : Except SystemError String := do
  let (_, entry) ← fs.find home p
  if !entry.access.read then throw .denied
  match entry.content with
  | .directory => throw .isDirectory
  | .file bytes =>
    match Text.decode? bytes with
    | some text => return text
    | none => throw .notUtf8

-- ---------------------------------------------------------------------------
-- Listing
-- ---------------------------------------------------------------------------

/-- Everything below a place: the path from there, with a slash after a
directory, and the bytes of a file; in ascending order of the paths. -/
def below (fs : Files) (place : List String) : List (String × List UInt8) :=
  let found := fs.entries.filterMap fun (there, entry) =>
    if place.isPrefixOf there && place ≠ there then
      let path := "/".intercalate (there.drop place.length)
      match entry.content with
      | .directory => some (path ++ "/", [])
      | .file bytes => some (path, bytes)
    else none
  found.mergeSort fun a b => (compare a.1 b.1).isLE

end Files

end TaskMill
