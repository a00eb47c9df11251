import TaskMill.Event.Basic
/-!
# TaskMill — events on the terminal

An event as a line for the terminal. Lines about tasks and runs go to the
standard error stream; a line that a task wrote goes to the stream it was
written to. What ended well, and that a run begins, is told only on demand.
-/

namespace TaskMill

/-- How events are shown. -/
structure Style where
  /-- Whether task names and alerts are coloured. -/
  colors : Bool
  /-- Whether the ends of tasks and runs are told. -/
  verbose : Bool
  deriving DecidableEq, Inhabited

/-- A line and the stream it goes to. -/
structure TerminalLine where
  stream : Stream
  text : String
  deriving DecidableEq, Inhabited

namespace Style

/-- Neither colours nor details. -/
def plain : Style := ⟨false, false⟩

/-- The mark of a line about a task. -/
def tag (s : Style) (name : String) : String :=
  if s.colors then s!"\x1b[1;36m> [{name}]\x1b[0m" else s!"> [{name}]"

/-- A part of a line that must not be overlooked. -/
def alert (s : Style) (text : String) : String :=
  if s.colors then s!"\x1b[1;31m{text}\x1b[0m" else text

/-- The line of a task event, if it is shown. -/
def taskLine (s : Style) : TaskEvent → Option TerminalLine
  | .started name command => some ⟨.stderr, s!"{s.tag name} {command}"⟩
  | .skipped name reason => some ⟨.stderr, s!"{s.tag name} skipped: {reason}"⟩
  | .output _ stream content => some ⟨stream, content⟩
  | .completed name success exitCode durationMs =>
    if s.verbose then
      let status := match success, exitCode with
        | true, _ => "completed"
        | false, some code => s!"failed (exit {code})"
        | false, none => "failed"
      some ⟨.stderr, s!"{s.tag name} {status} in {durationMs}ms"⟩
    else none
  | .timedOut name timeoutSecs =>
    let detail := s.alert s!"timed out after {timeoutSecs}s"
    some ⟨.stderr, s!"{s.tag name} {detail}"⟩

/-- The line of a run event, if it is shown. -/
def runLine (s : Style) : RunEvent → Option TerminalLine
  | .planned target taskCount =>
    if s.verbose then some ⟨.stderr, s!"> Running '{target}' ({taskCount} tasks)"⟩ else none
  | .completed target success durationMs =>
    if s.verbose then
      let status := if success then "completed" else "failed"
      some ⟨.stderr, s!"> '{target}' {status} in {durationMs}ms"⟩
    else none
  | .cancelled target task =>
    let detail := (task.map fun name => s!" while running '{name}'").getD ""
    let notice := s.alert s!"'{target}' cancelled"
    some ⟨.stderr, s!"> {notice}{detail}"⟩

/-- The line of an event, if it is shown. -/
def line (s : Style) : Event → Option TerminalLine
  | .task event => s.taskLine event
  | .run event => s.runLine event

end Style

end TaskMill
