import TaskMill.Files.Basic
/-!
# TaskMill — changing files

Files made, written, dated and removed, and directories made. A change either
is refused, with the error that the operating system gives, or takes place at
the time `now`; only of what is written to a file can a part be refused.
-/

namespace TaskMill.Files

/-- Puts an entry at a place, in the place of what is there. -/
def put (fs : Files) (place : List String) (entry : FileEntry) : Files :=
  if place ∈ fs.entries.map Prod.fst then
    { fs with entries :=
        fs.entries.map fun (there, old) => if there = place then (there, entry) else (there, old) }
  else { fs with entries := fs.entries ++ [(place, entry)] }

/-- Sets the time at which a place was modified. -/
def date (fs : Files) (place : List String) (time : Int) : Files :=
  match fs.get? place with
  | none => fs
  | some entry => fs.put place { entry with modified := time }

/-- Adds an entry to the directory it stands in. -/
def insert (fs : Files) (now : Int) (place : List String) (content : Content) : Files :=
  (fs.put place ⟨content, now, .full⟩).date place.dropLast now

/-- Takes an entry out of the directory it stands in. -/
def erase (fs : Files) (now : Int) (place : List String) : Files :=
  let entries := fs.entries.filter fun (there, _) => there ≠ place
  { fs with entries }.date place.dropLast now

/-- How many bytes all files take up. -/
def size (fs : Files) : Nat :=
  fs.entries.foldl (fun sum (_, entry) => sum + entry.size) 0

/-- As many of the bytes as there is room for. -/
def fitting (fs : Files) (bytes : List UInt8) : List UInt8 :=
  match fs.capacity with
  | some capacity => bytes.take (capacity - fs.size)
  | none => bytes

/-- Whether entries may be made at a place and taken from it: whether the directory
that it is in may be written to. -/
def mayChange (fs : Files) (place : List String) : Bool :=
  (fs.get? place.dropLast).all (·.access.write)

-- ---------------------------------------------------------------------------
-- As a process changes them
-- ---------------------------------------------------------------------------

/-- Where a file named by a path can be made, or is. What is there already is
given with the place. -/
def filePlace (fs : Files) (home : List String) (p : Path) :
    Except SystemError (List String × Option FileEntry) := do
  let route ← p.route
  let start := startOf home route
  match route.names.getLast? with
  | none => return (start, fs.get? start)
  | some last =>
    let parent ← fs.follow start route.names.dropLast
    let named := last ≠ "." && last ≠ ".."
    let _ ← fs.step parent "."
    if route.toDirectory && named then throw .isDirectory
    let place ← fs.step parent last
    return (place, fs.get? place)

/-- Makes an empty file at a place where nothing is. -/
def make (fs : Files) (now : Int) (place : List String) : Except SystemError Files :=
  if fs.mayChange place then .ok (fs.insert now place (.file [])) else .error .denied

/-- Makes an empty file where nothing is yet. -/
def createNew (fs : Files) (now : Int) (home : List String) (p : Path) :
    Except SystemError Files := do
  match ← fs.filePlace home p with
  | (_, some _) => throw .alreadyExists
  | (place, none) => fs.make now place

/-- Puts bytes at the end of the file at a place, as far as there is room for
them. -/
def write (fs : Files) (now : Int) (place : List String) (bytes : List UInt8) :
    Except SystemError Unit × Files :=
  match fs.get? place with
  | none => (.error .notFound, fs)
  | some entry =>
    match entry.content with
    | .directory => (.error .isDirectory, fs)
    | .file old =>
      (if fs.fitting bytes = bytes then .ok () else .error .noSpace,
        fs.put place { entry with content := .file (old ++ fs.fitting bytes), modified := now })

/-- Puts bytes at the end of a file, which is made if it is not there. -/
def append (fs : Files) (now : Int) (home : List String) (p : Path) (bytes : List UInt8) :
    Except SystemError Files := do
  match ← fs.filePlace home p with
  | (place, none) => return ((← fs.make now place).write now place bytes).2
  | (place, some entry) =>
    if entry.isDirectory then throw .isDirectory
    if !entry.access.write then throw .denied
    return (fs.write now place bytes).2

/-- Sets the time of a file, which is made if it is not there. -/
def touch (fs : Files) (now : Int) (home : List String) (p : Path) (time : Int) :
    Except SystemError Files := do
  match ← fs.filePlace home p with
  | (place, none) => return (← fs.make now place).date place time
  | (place, some _) => return fs.date place time

/-- Removes a file. -/
def remove (fs : Files) (now : Int) (home : List String) (p : Path) :
    Except SystemError Files := do
  let (place, entry) ← fs.find home p
  if entry.isDirectory then throw .isDirectory
  if !fs.mayChange place then throw .denied
  return fs.erase now place

-- ---------------------------------------------------------------------------
-- As they are laid out
-- ---------------------------------------------------------------------------

/-- Makes the directory at a place and all above it that are missing. -/
def makeDirectories (fs : Files) (now : Int) (place : List String) : Files :=
  (List.range place.length).foldl (fun fs n =>
    let here := place.take (n + 1)
    if (fs.get? here).isSome then fs else fs.insert now here .directory) fs

/-- Puts something at a place, with all directories above it. -/
def lay (fs : Files) (now : Int) (place : List String) (content : Content) : Files :=
  match content with
  | .directory => fs.makeDirectories now place
  | .file _ => (fs.makeDirectories now place.dropLast).insert now place content

end TaskMill.Files
