import TaskMill.Event.Basic
/-!
# TaskMill — signals

How events travel. A **signal** is a bundle of named fields on a target, as the
logging channel delivers it; sending an event turns it into a signal, and
`event?` turns a signal back into the event, if it carries one. A field that is
sent twice counts with its last value; a field of the wrong type is not seen.
-/

namespace TaskMill

/-- The value of a signal's field. -/
inductive FieldValue where
  | text (value : String)
  | signed (value : Int64)
  | unsigned (value : UInt64)
  | flag (value : Bool)
  deriving DecidableEq, Inhabited

/-- Named values on a target. -/
structure Signal where
  target : String
  fields : List (String × FieldValue)
  deriving DecidableEq, Inhabited

namespace Signal

-- ---------------------------------------------------------------------------
-- Sending
-- ---------------------------------------------------------------------------

/-- The signal of a task event. -/
def ofTaskEvent : TaskEvent → Signal
  | .started name command => ⟨Event.taskTarget,
      [("event_type", .text "task.started"), ("task_name", .text name), ("command", .text command)]⟩
  | .skipped name reason => ⟨Event.taskTarget,
      [("event_type", .text "task.skipped"), ("task_name", .text name), ("reason", .text reason)]⟩
  | .output name stream content => ⟨Event.taskTarget,
      [("event_type", .text "task.output"), ("task_name", .text name),
        ("stream", .text stream.name), ("content", .text content)]⟩
  | .completed name success exitCode durationMs => ⟨Event.taskTarget,
      [("event_type", .text "task.completed"), ("task_name", .text name),
        ("success", .flag success)]
        ++ (exitCode.map fun code => ("exit_code", FieldValue.signed code.toInt64)).toList
        ++ [("duration_ms", .unsigned durationMs)]⟩
  | .timedOut name timeoutSecs => ⟨Event.taskTarget,
      [("event_type", .text "task.timed_out"), ("task_name", .text name),
        ("timeout_secs", .unsigned timeoutSecs)]⟩

/-- The signal of a run event. -/
def ofRunEvent : RunEvent → Signal
  | .planned target taskCount => ⟨Event.runTarget,
      [("event_type", .text "run.planned"), ("run_target", .text target),
        ("task_count", .unsigned taskCount)]⟩
  | .completed target success durationMs => ⟨Event.runTarget,
      [("event_type", .text "run.completed"), ("run_target", .text target),
        ("success", .flag success), ("duration_ms", .unsigned durationMs)]⟩
  | .cancelled target task => ⟨Event.runTarget,
      [("event_type", .text "run.cancelled"), ("run_target", .text target)]
        ++ (task.map fun name => ("task_name", FieldValue.text name)).toList⟩

/-- The signal of an event. -/
def ofEvent : Event → Signal
  | .task event => ofTaskEvent event
  | .run event => ofRunEvent event

-- ---------------------------------------------------------------------------
-- Receiving
-- ---------------------------------------------------------------------------

/-- The last value that a field has among those that `read` accepts. -/
def last? {α : Type} (s : Signal) (field : String) (read : FieldValue → Option α) : Option α :=
  s.fields.foldl (fun found (name, value) => if name = field then (read value).or found else found)
    none

/-- The value of a text field. -/
def text? (s : Signal) (field : String) : Option String :=
  s.last? field fun
    | .text value => some value
    | _ => none

/-- The value of a yes-or-no field. -/
def flag? (s : Signal) (field : String) : Option Bool :=
  s.last? field fun
    | .flag value => some value
    | _ => none

/-- The value of a field that counts something; a negative value is taken as
the count with the same bits. -/
def count? (s : Signal) (field : String) : Option UInt64 :=
  s.last? field fun
    | .signed value => some value.toUInt64
    | .unsigned value => some value
    | _ => none

/-- The value of a field that holds an exit code: the lower half of the number
sent. -/
def code? (s : Signal) (field : String) : Option Int32 :=
  s.last? field fun
    | .signed value => some value.toInt32
    | .unsigned value => some value.toInt64.toInt32
    | _ => none

/-- The stream that a field names; the last text counts, even if it names
none. -/
def stream? (s : Signal) (field : String) : Option Stream :=
  (s.text? field).bind Stream.ofName?

/-- The task event that a signal tells by its type `kind`. -/
def taskEvent? (s : Signal) (kind : String) : Option TaskEvent := do
  let name ← s.text? "task_name"
  match kind with
  | "task.started" => return .started name ((s.text? "command").getD "")
  | "task.skipped" => return .skipped name ((s.text? "reason").getD "")
  | "task.output" => return .output name ((s.stream? "stream").getD .stdout) (← s.text? "content")
  | "task.completed" =>
    return .completed name (← s.flag? "success") (s.code? "exit_code")
      ((s.count? "duration_ms").getD 0)
  | "task.timed_out" => return .timedOut name (← s.count? "timeout_secs")
  | _ => none

/-- The run event that a signal tells by its type `kind`. -/
def runEvent? (s : Signal) (kind : String) : Option RunEvent := do
  let target ← s.text? "run_target"
  match kind with
  | "run.planned" => return .planned target ((s.count? "task_count").getD 0)
  | "run.completed" =>
    return .completed target (← s.flag? "success") ((s.count? "duration_ms").getD 0)
  | "run.cancelled" => return .cancelled target (s.text? "task_name")
  | _ => none

/-- The event that a signal carries. Its type decides whether it is a task or a
run event, whichever of the two targets it was sent on; a signal on any other
target, of an unknown type or without a field it must have carries none. -/
def event? (s : Signal) : Option SourcedEvent := do
  if Event.isTarget s.target then
    let kind ← s.text? "event_type"
    let event ← ((s.taskEvent? kind).map Event.task).or ((s.runEvent? kind).map Event.run)
    return ⟨s.target, event⟩
  else none

end Signal

end TaskMill
