import TaskMill.CommandLine.Basic
import TaskMill.Text.Digits
import TaskMill.Word
/-!
# TaskMill — reading command lines

Arguments are read from left to right. An option is a name after two dashes, or
a letter after one; letters may share a dash. The value of an option stands
after `=`, right after the letter, or in the next argument. After the argument
`--` there are no options any more. Everything else is the task.

A value from the next argument is held back until the next option or task asks
for it to be settled, so an unknown option after it is noticed first. That two
options exclude each other is noticed when all arguments have been read.
-/

namespace TaskMill

/-- An option that takes no value. -/
inductive Switch where
  | mode (mode : Mode)
  | json
  | capture
  | verbose
  deriving DecidableEq, Inhabited

/-- The options that an option is declared to conflict with. Each conflict is
declared on one side only. -/
def Switch.conflicts : Switch → List Switch
  | .mode .list => [.mode .check, .mode .dryRun, .mode .init]
  | .mode .check => [.mode .dryRun, .mode .init]
  | .mode .dryRun => [.mode .init]
  | .mode .init | .json | .capture | .verbose => []

/-- Options exclude each other if either is declared to conflict with the other. -/
def Switch.excludes (a b : Switch) : Bool :=
  b ∈ a.conflicts || a ∈ b.conflicts

/-- An option that takes a value. -/
inductive Setting where
  | file
  | level
  | timeout
  deriving DecidableEq, Inhabited

/-- Any option. -/
inductive CommandOption where
  | switch (switch : Switch)
  | setting (setting : Setting)
  | help
  | version
  deriving DecidableEq, Inhabited

namespace CommandOption

/-- The options by name. -/
def names : List (String × CommandOption) := [
  ("list", switch (.mode .list)), ("check", switch (.mode .check)),
  ("dry-run", switch (.mode .dryRun)), ("init", switch (.mode .init)),
  ("file", setting .file), ("level", setting .level), ("json", switch .json),
  ("capture", switch .capture), ("timeout", setting .timeout), ("verbose", switch .verbose),
  ("help", help), ("version", version)]

/-- The options by letter. -/
def letters : List (Char × CommandOption) := [
  ('n', switch (.mode .dryRun)), ('f', setting .file), ('L', setting .level),
  ('v', switch .verbose), ('h', help), ('V', version)]

end CommandOption

-- ---------------------------------------------------------------------------
-- What has been given
-- ---------------------------------------------------------------------------

/-- What the arguments read so far have given. -/
structure Given where
  task : Option String
  /-- The options without a value, in the order given. -/
  switches : List Switch
  file : Option Path
  level : Option LogLevel
  timeout : Option UInt64
  deriving DecidableEq, Inhabited

namespace Given

/-- Nothing. -/
def nothing : Given := ⟨none, [], none, none, none⟩

/-- Turns an option on, once. -/
def turnOn (g : Given) (switch : Switch) : Except Misuse Given :=
  if switch ∈ g.switches then .error .conflict
  else .ok { g with switches := g.switches ++ [switch] }

/-- The number of seconds that a value denotes: at least one, in 64 bits. -/
def seconds? (value : String) : Option UInt64 := do
  let n ← Text.readDecimal? (match value.toList with
    | '+' :: digits => digits
    | digits => digits)
  if 1 ≤ n ∧ n < Word.count 64 then some (UInt64.ofNat n) else none

/-- Whether an option already has a value. -/
def has (g : Given) : Setting → Bool
  | .file => g.file.isSome
  | .level => g.level.isSome
  | .timeout => g.timeout.isSome

/-- Gives an option its value, once. -/
def assign (g : Given) (setting : Setting) (value : String) : Except Misuse Given :=
  if g.has setting then .error .conflict
  else match setting with
    | .file => if value.isEmpty then .error .badValue else .ok { g with file := some ⟨value⟩ }
    | .level =>
      match LogLevel.ofName? value with
      | some level => .ok { g with level := some level }
      | none => .error .badValue
    | .timeout =>
      match seconds? value with
      | some n => .ok { g with timeout := some n }
      | none => .error .badNumber

/-- Whether two options have been given that exclude each other. -/
def isContradictory (g : Given) : Bool :=
  g.switches.any fun a => g.switches.any fun b => a.excludes b

/-- What is asked for, if no option excludes another one. -/
def commandLine (g : Given) : Except Misuse CommandLine :=
  if g.isContradictory then .error .conflict
  else .ok {
    task := g.task
    list := .mode .list ∈ g.switches
    check := .mode .check ∈ g.switches
    dryRun := .mode .dryRun ∈ g.switches
    init := .mode .init ∈ g.switches
    file := g.file
    level := g.level.getD .warn
    json := .json ∈ g.switches
    capture := .capture ∈ g.switches
    timeout := g.timeout
    verbose := .verbose ∈ g.switches }

end Given

-- ---------------------------------------------------------------------------
-- Reading arguments
-- ---------------------------------------------------------------------------

/-- Arguments being read. -/
structure ArgumentReader where
  given : Given
  /-- An option that waits for its value, or for its value to be settled. -/
  pending : Option (Setting × Option String)
  /-- Whether there are no options any more. -/
  onlyTask : Bool
  deriving DecidableEq, Inhabited

namespace ArgumentReader

/-- No argument has been read. -/
def start : ArgumentReader := ⟨.nothing, none, false⟩

/-- Settles the option that is pending; it must have a value. -/
def settle (r : ArgumentReader) : Except Misuse ArgumentReader :=
  match r.pending with
  | none => .ok r
  | some (_, none) => .error .badValue
  | some (setting, some value) =>
    (r.given.assign setting value).map fun given => { r with given, pending := none }

/-- An option without a value. -/
def turnOn (r : ArgumentReader) (switch : Switch) : Except Misuse ArgumentReader := do
  let r ← r.settle
  return { r with given := ← r.given.turnOn switch }

/-- An option with its value, or one that takes it from the next argument. -/
def assign (r : ArgumentReader) (setting : Setting) (value : Option String) :
    Except Misuse ArgumentReader := do
  let r ← r.settle
  match value with
  | some value => return { r with given := ← r.given.assign setting value }
  | none => return { r with pending := some (setting, none) }

/-- An option that ends the reading. -/
def stop (r : ArgumentReader) (reason : Misuse) : Except Misuse ArgumentReader := do
  let _ ← r.settle
  throw reason

/-- An argument that is no option: the task, of which there is one. -/
def takeTask (r : ArgumentReader) (name : String) : Except Misuse ArgumentReader := do
  if r.given.task.isSome then throw .unknown
  let r ← r.settle
  return { r with given := { r.given with task := some name } }

/-- What stands after the first `=`. -/
def valueOf (body : List Char) : Option String :=
  match body.dropWhile (· ≠ '=') with
  | [] => none
  | _ :: value => some (String.ofList value)

/-- An option by name; `body` is what follows the dashes. -/
def takeName (r : ArgumentReader) (body : List Char) : Except Misuse ArgumentReader :=
  match CommandOption.names.lookup (String.ofList (body.takeWhile (· ≠ '='))), valueOf body with
  | none, _ => .error .unknown
  | some (.setting setting), value => r.assign setting value
  | some _, some _ => .error .unwantedValue
  | some (.switch switch), none => r.turnOn switch
  | some .help, none => r.stop .help
  | some .version, none => r.stop .version

/-- The value that stands right after a letter, perhaps behind an `=`. -/
def attached : List Char → Option String
  | [] => none
  | '=' :: value => some (String.ofList value)
  | value => some (String.ofList value)

/-- Options by letter. -/
def takeLetters (r : ArgumentReader) : List Char → Except Misuse ArgumentReader
  | [] => .ok r
  | letter :: rest =>
    match CommandOption.letters.lookup letter with
    | none => .error .unknown
    | some (.setting setting) => r.assign setting (attached rest)
    | some (.switch switch) =>
      match r.turnOn switch with
      | .ok next => next.takeLetters rest
      | .error misuse => .error misuse
    | some .help => r.stop .help
    | some .version => r.stop .version

/-- An argument that may be a value or the task. -/
def takeWord (r : ArgumentReader) (word : String) : Except Misuse ArgumentReader :=
  match r.pending with
  | some (setting, none) => .ok { r with pending := some (setting, some word) }
  | _ => r.takeTask word

/-- The next argument. -/
def take (r : ArgumentReader) (argument : String) : Except Misuse ArgumentReader :=
  if r.onlyTask then r.takeTask argument
  else match argument.toList with
    | ['-', '-'] => .ok { r with onlyTask := true }
    | '-' :: '-' :: body => r.takeName body
    | '-' :: letter :: rest => r.takeLetters (letter :: rest)
    | _ => r.takeWord argument

end ArgumentReader

/-- What arguments give, one by one. -/
def Given.ofArguments (arguments : List String) : Except Misuse Given := do
  let r ← arguments.foldlM ArgumentReader.take .start
  return (← r.settle).given

/-- The command line that arguments make up. -/
def CommandLine.parse (arguments : List String) : Except Misuse CommandLine := do
  (← Given.ofArguments arguments).commandLine

end TaskMill
