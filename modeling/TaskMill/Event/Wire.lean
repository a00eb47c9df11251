import TaskMill.Event.Basic
import TaskMill.Json.Basic
import TaskMill.Word
/-!
# TaskMill — events as JSON

An event is written as two tagged layers: the kind of event, then its name and
its fields. Reading takes a field wherever it stands in its object and passes
over members that are not known. A layer may also be given as the array of its
tag and its content; what the content of an object holds was set aside until
its tag was known, and is read a little more freely. What may be absent is
`null` or left out, and a number must fit the type it is read into.
-/

namespace TaskMill

-- ---------------------------------------------------------------------------
-- Reading values
-- ---------------------------------------------------------------------------

namespace Json

/-- The string that a value is. -/
def text? : Json → Option String
  | str s => some s
  | _ => none

/-- The truth value that a value is. -/
def flag? : Json → Option Bool
  | bool b => some b
  | _ => none

/-- The integer that a value is. -/
def int? : Json → Option Int
  | int n => some n
  | _ => none

/-- The 64-bit count that a value is. -/
def word64? (j : Json) : Option UInt64 :=
  j.int?.bind fun n => if Word.holds 64 n then some (UInt64.ofNat n.toNat) else none

/-- The 32-bit integer that a value is. -/
def int32? (j : Json) : Option Int32 :=
  j.int?.bind fun n => if Word.holdsSigned 32 n then some (Int32.ofInt n) else none

/-- A value that may be absent: left out, `null`, or read by `read`. -/
def optional? {α : Type} (read : Json → Option α) : Option Json → Option (Option α)
  | none => some none
  | some null => some none
  | some j => (read j).map some

/-- The values of the named members, each absent or there; nothing for what is
no object. -/
def members? (j : Json) (names : List String) : Option (List (Option Json)) :=
  match j with
  | obj _ => some (names.map j.get?)
  | _ => none

/-- The values of the named fields, each absent or there; or, given as an
array, exactly one value for each name. -/
def fields? (j : Json) (names : List String) : Option (List (Option Json)) :=
  match j with
  | arr items => if items.length = names.length then some (items.map some) else none
  | _ => j.members? names

end Json

-- ---------------------------------------------------------------------------
-- Reading tags
-- ---------------------------------------------------------------------------

/-- How the value of a tagged layer is read. -/
inductive LayerReading where
  /-- Where it is met: after its tag. -/
  | direct
  /-- From where it was set aside until its tag was known. -/
  | deferred
  deriving DecidableEq, Inhabited

namespace LayerReading

/-- Whether a value says that a name has nothing with it: `null`, or, once it
was set aside, also an object without members. -/
def isNothing : LayerReading → Json → Bool
  | _, .null => true
  | deferred, .obj [] => true
  | _, _ => false

/-- A name that stands alone: a string, or an object whose only member has that
name and nothing with it. -/
def name? (r : LayerReading) : Json → Option String
  | .str s => some s
  | .obj [(name, value)] => if r.isNothing value then some name else none
  | _ => none

/-- The name that heads an array: a string, or, once it was set aside, its
place among all names. -/
def head? (r : LayerReading) (names : List String) : Json → Option String
  | .str s => some s
  | .int n => if r = deferred ∧ 0 ≤ n then names[n.toNat]? else none
  | _ => none

/-- The name and the content of a tagged layer, and how the content is to be
read. An array gives them in this order. The members of an object come in the
order of their keys, so the content is met before its tag and is set aside. -/
def layer? (r : LayerReading) (tag : String) (names : List String) :
    Json → Option (String × Json × LayerReading)
  | .arr [name, content] => (r.head? names name).map (·, content, r)
  | .obj members => do
    let name ← r.name? (← (Json.obj members).get? tag)
    return (name, ← (Json.obj members).get? "data", deferred)
  | _ => none

end LayerReading

-- ---------------------------------------------------------------------------
-- Writing
-- ---------------------------------------------------------------------------

/-- A name and its fields, as two members. -/
def tagged (tag name : String) (content : Json) : Json :=
  .obj [(tag, .str name), ("data", content)]

/-- A 64-bit count as JSON. -/
def wordJson (n : UInt64) : Json := .int n.toNat

namespace TaskEvent

/-- A task event as JSON. -/
def toJson : TaskEvent → Json
  | started name command =>
    tagged "event" "Started" (.obj [("name", .str name), ("command", .str command)])
  | skipped name reason =>
    tagged "event" "Skipped" (.obj [("name", .str name), ("reason", .str reason)])
  | output name stream content =>
    tagged "event" "Output"
      (.obj [("name", .str name), ("stream", .str stream.name), ("content", .str content)])
  | completed name success exitCode durationMs =>
    tagged "event" "Completed"
      (.obj [("name", .str name), ("success", .bool success),
        ("exit_code", (exitCode.map fun code => Json.int code.toInt).getD .null),
        ("duration_ms", wordJson durationMs)])
  | timedOut name timeoutSecs =>
    tagged "event" "TimedOut" (.obj [("name", .str name), ("timeout_secs", wordJson timeoutSecs)])

/-- The names of the task events. -/
def names : List String := ["Started", "Skipped", "Output", "Completed", "TimedOut"]

/-- The task event that a name and its fields denote. -/
def ofFields? (r : LayerReading) (name : String) (content : Json) : Option TaskEvent := do
  match name with
  | "Started" =>
    let [name, command] ← content.members? ["name", "command"] | none
    return started (← name.bind Json.text?) (← command.bind Json.text?)
  | "Skipped" =>
    let [name, reason] ← content.members? ["name", "reason"] | none
    return skipped (← name.bind Json.text?) (← reason.bind Json.text?)
  | "Output" =>
    let [name, stream, text] ← content.members? ["name", "stream", "content"] | none
    return output (← name.bind Json.text?) (← (stream.bind r.name?).bind Stream.ofName?)
      (← text.bind Json.text?)
  | "Completed" =>
    let [name, success, code, duration] ←
      content.members? ["name", "success", "exit_code", "duration_ms"] | none
    return completed (← name.bind Json.text?) (← success.bind Json.flag?)
      (← Json.optional? Json.int32? code) (← duration.bind Json.word64?)
  | "TimedOut" =>
    let [name, timeout] ← content.members? ["name", "timeout_secs"] | none
    return timedOut (← name.bind Json.text?) (← timeout.bind Json.word64?)
  | _ => none

end TaskEvent

namespace RunEvent

/-- A run event as JSON. -/
def toJson : RunEvent → Json
  | planned target taskCount =>
    tagged "event" "Planned" (.obj [("target", .str target), ("task_count", wordJson taskCount)])
  | completed target success durationMs =>
    tagged "event" "Completed"
      (.obj [("target", .str target), ("success", .bool success),
        ("duration_ms", wordJson durationMs)])
  | cancelled target task =>
    tagged "event" "Cancelled" (.obj [("target", .str target), ("task", .optStr task)])

/-- The names of the run events. -/
def names : List String := ["Planned", "Completed", "Cancelled"]

/-- The run event that a name and its fields denote. -/
def ofFields? (name : String) (content : Json) : Option RunEvent := do
  match name with
  | "Planned" =>
    let [target, count] ← content.members? ["target", "task_count"] | none
    return planned (← target.bind Json.text?) (← count.bind Json.word64?)
  | "Completed" =>
    let [target, success, duration] ← content.members? ["target", "success", "duration_ms"] | none
    return completed (← target.bind Json.text?) (← success.bind Json.flag?)
      (← duration.bind Json.word64?)
  | "Cancelled" =>
    let [target, task] ← content.members? ["target", "task"] | none
    return cancelled (← target.bind Json.text?) (← Json.optional? Json.text? task)
  | _ => none

end RunEvent

namespace Event

/-- An event as JSON. -/
def toJson : Event → Json
  | task event => tagged "type" "Task" event.toJson
  | run event => tagged "type" "Run" event.toJson

/-- The names of the kinds of event. -/
def names : List String := ["Task", "Run"]

/-- The event that a JSON value denotes. -/
def ofJson? (j : Json) : Option Event := do
  let (kind, content, r) ← LayerReading.direct.layer? "type" names j
  match kind with
  | "Task" =>
    let (name, fields, r) ← r.layer? "event" TaskEvent.names content
    return task (← TaskEvent.ofFields? r name fields)
  | "Run" =>
    let (name, fields, _) ← r.layer? "event" RunEvent.names content
    return run (← RunEvent.ofFields? name fields)
  | _ => none

end Event

end TaskMill
