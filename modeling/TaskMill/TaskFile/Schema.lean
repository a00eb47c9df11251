import TaskMill.TaskFile.Basic
import TaskMill.Text.Quoted
import TaskMill.Toml.Basic
import TaskMill.Word
/-!
# TaskMill — the schema of task files

What a TOML table must look like to be a task file, and the first way in which
it does not. The keys of a table are looked at in ascending order, each with
all it holds; that a key is missing is noticed after them. A table of the
schema may also be given as an array of its values in the order of the schema.
-/

namespace TaskMill

/-- How a TOML value fails to be what is expected. -/
inductive ShapeError where
  | unknownField (name : String) (known : List String)
  | missingField (name : String)
  | wrongType (found expected : String)
  | wrongValue (found expected : String)
  | wrongLength (length : Nat) (expected : String)
  /-- A number that has no value, or one that no type can hold. -/
  | noNumber
  deriving DecidableEq, Inhabited

/-- A name between backticks. -/
def ticked (name : String) : String := "`" ++ name ++ "`"

/-- The sentence that tells a shape error. -/
def ShapeError.message : ShapeError → String
  | unknownField name known =>
    let expected := match known.map ticked with
      | [a, b] => s!"{a} or {b}"
      | names => "one of " ++ ", ".intercalate names
    s!"unknown field {ticked name}, expected {expected}"
  | missingField name => s!"missing field {ticked name}"
  | wrongType found expected => s!"invalid type: {found}, expected {expected}"
  | wrongValue found expected => s!"invalid value: {found}, expected {expected}"
  | wrongLength length expected => s!"invalid length {length}, expected {expected}"
  | noNumber => "syntax"

namespace Toml

/-- An expected value that turned out to be this one. -/
def mismatch (v : Toml) (expected : String) : ShapeError :=
  match v with
  | string s => .wrongType s!"string {Text.quoted s}" expected
  | integer (some n) =>
    if Word.holdsSigned 64 n || Word.holds 64 n then
      .wrongType s!"integer {ticked (toString n)}" expected
    else if Word.holdsSigned 128 n then
      .wrongType s!"integer {ticked (toString n)} as i128" expected
    else if Word.holds 128 n then
      .wrongType s!"integer {ticked (toString n)} as u128" expected
    else .noNumber
  | integer none => .noNumber
  | float (some x) => .wrongType s!"floating point {ticked x.text}" expected
  | float none => .noNumber
  | boolean b => .wrongType s!"boolean {ticked (toString b)}" expected
  | array _ => .wrongType "sequence" expected
  | moment _ | table _ => .wrongType "map" expected

-- ---------------------------------------------------------------------------
-- Single values
-- ---------------------------------------------------------------------------

/-- A text. -/
def asText (v : Toml) : Except ShapeError String :=
  match v with
  | string s => .ok s
  | other => .error (other.mismatch "a string")

/-- A path. -/
def asPath (v : Toml) : Except ShapeError Path :=
  match v with
  | string s => .ok ⟨s⟩
  | other => .error (other.mismatch "path string")

/-- A truth value. -/
def asFlag (v : Toml) : Except ShapeError Bool :=
  match v with
  | boolean b => .ok b
  | other => .error (other.mismatch "a boolean")

/-- A count of 64 bits. -/
def asCount (v : Toml) : Except ShapeError UInt64 :=
  match v with
  | integer (some n) =>
    if Word.holds 64 n then .ok (UInt64.ofNat n.toNat)
    else if Word.holdsSigned 64 n then .error (.wrongValue s!"integer {ticked (toString n)}" "u64")
    else .error (v.mismatch "u64")
  | other => .error (other.mismatch "u64")

/-- A list, each element read by `read`. -/
def asList {α : Type} (read : Toml → Except ShapeError α) (v : Toml) :
    Except ShapeError (List α) :=
  match v with
  | array items => items.mapM read
  | other => .error (other.mismatch "a sequence")

-- ---------------------------------------------------------------------------
-- Tables of the schema
-- ---------------------------------------------------------------------------

/-- A table whose keys are known: their names in the order of the schema, and
how a key and its value are added to what has been read. -/
structure Shape (α : Type) where
  /-- What the table is called where it is missed. -/
  title : String
  keys : List String
  /-- The keys that the array form may not leave out. -/
  required : List String
  add : String → Toml → α → Except ShapeError α

/-- The entries of a table in ascending order of their keys. -/
def sortedEntries (entries : List (String × Toml)) : List (String × Toml) :=
  entries.mergeSort fun a b => (compare a.1 b.1).isLE

/-- Adds the entries of a table to `start`. -/
def Shape.ofEntries {α : Type} (shape : Shape α) (start : α) (entries : List (String × Toml)) :
    Except ShapeError α :=
  (sortedEntries entries).foldlM (fun read (key, value) =>
    if key ∈ shape.keys then shape.add key value read
    else .error (.unknownField key shape.keys)) start

/-- Adds the values of an array, one for each key, to `start`; more values than
keys are passed over. -/
def Shape.ofItems {α : Type} (shape : Shape α) (start : α) (items : List Toml) :
    Except ShapeError α :=
  shape.keys.zipIdx.foldlM (fun read (key, i) =>
    match items[i]? with
    | some value => shape.add key value read
    | none =>
      if key ∈ shape.required then
        .error (.wrongLength i s!"struct {shape.title} with {shape.keys.length} elements")
      else .ok read) start

/-- A key that no table of a schema has; a date or a time stands for a table
with this key alone. -/
def momentKey : String := "$__toml_private_datetime"

/-- Reads a table of the schema in either form. A table must have the keys of
`needed`. -/
def Shape.read {α : Type} (shape : Shape α) (start : α) (needed : List String) (v : Toml) :
    Except ShapeError α :=
  match v with
  | table entries => do
    let read ← shape.ofEntries start entries
    match needed.find? fun key => (entries.lookup key).isNone with
    | some key => .error (.missingField key)
    | none => .ok read
  | array items => shape.ofItems start items
  | moment _ => .error (.unknownField momentKey shape.keys)
  | other => .error (other.mismatch s!"struct {shape.title}")

end Toml

-- ---------------------------------------------------------------------------
-- The schema
-- ---------------------------------------------------------------------------

/-- The table of settings. -/
def Settings.shape : Toml.Shape Settings where
  title := "Settings"
  keys := ["default", "timeout_secs", "capture_output"]
  required := ["default", "timeout_secs", "capture_output"]
  add key v s :=
    match key with
    | "default" => return { s with default := some (← v.asText) }
    | "timeout_secs" => return { s with timeoutSecs := some (← v.asCount) }
    | "capture_output" => return { s with captureOutput := some (← v.asFlag) }
    | _ => .ok s

/-- The table of a task. -/
def TaskEntry.shape : Toml.Shape TaskEntry where
  title := "TaskConfig"
  keys := ["name", "description", "phony", "artifact", "depends_on", "command", "args",
    "directory", "timeout_secs"]
  required := ["name"]
  add key v e :=
    match key with
    | "name" => return { e with name := ← v.asText }
    | "description" => return { e with description := some (← v.asText) }
    | "phony" => return { e with phony := some (← v.asFlag) }
    | "artifact" => return { e with artifact := some (← v.asPath) }
    | "depends_on" => return { e with dependsOn := ← v.asList Toml.asText }
    | "command" => return { e with command := some (← v.asText) }
    | "args" => return { e with args := ← v.asList Toml.asText }
    | "directory" => return { e with directory := some (← v.asPath) }
    | "timeout_secs" => return { e with timeoutSecs := some (← v.asCount) }
    | _ => .ok e

/-- The table that is the whole file. -/
def TaskFile.shape : Toml.Shape TaskFile where
  title := "TaskFile"
  keys := ["settings", "task"]
  required := []
  add key v f :=
    match key with
    | "settings" => return { f with settings := ← Settings.shape.read .none [] v }
    | "task" =>
      return { f with tasks := ← v.asList (TaskEntry.shape.read (.named "") ["name"]) }
    | _ => .ok f

/-- The task file that a TOML value denotes. -/
def TaskFile.ofToml (v : Toml) : Except ShapeError TaskFile :=
  TaskFile.shape.read .empty [] v

end TaskMill
