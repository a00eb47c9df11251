import TaskMill.Run.Basic
import TaskMill.Text.Lines
/-!
# TaskMill — performing an action

A task's action performed as a process: what is told before, meanwhile and
after, and whether the process ended by itself. A process that fails after the
run has been cancelled, or that is ended by an interruption from the keyboard,
counts as cancelled.

Captured output is told line by line while it is read, here one stream after the
other, however their lines alternated. Where a process is given up, reading stops,
and the lines not read by then are not told. But where the operating system refuses
to tell how a process ended, its output goes on being read: it is told **late**, when
the run has gone on without it.
-/

namespace TaskMill

variable {σ : Type}

/-- What performing something came to: the result, what was let out, what is let
out late, and the state of the host afterwards. -/
structure Attempt (σ α : Type) where
  result : Except Fault α
  emissions : List Emission
  /-- What nobody waits for any longer, and is let out all the same. -/
  late : List Emission
  world : σ

/-- The lines captured from a stream. -/
def RunOptions.captured (o : RunOptions) (bytes : List UInt8) : List String :=
  if o.capture then Text.linesOfBytes bytes else []

/-- What is let out of what a process wrote to a stream: its lines as events if
they are captured, and else the bytes as they are. -/
def RunOptions.told (o : RunOptions) (name : String) (stream : Stream) (bytes : List UInt8) :
    List Emission :=
  if o.capture then
    (Text.linesOfBytes bytes).map fun line => .event (.task (.output name stream line))
  else if bytes.isEmpty then [] else [.passed stream bytes]

/-- What is let out of all that a process wrote. -/
def RunOptions.toldAll {launch : Launch} (o : RunOptions) (name : String)
    (p : Performance launch) : List Emission :=
  o.told name .stdout p.stdout ++ o.told name .stderr p.stderr

/-- What has been let out of what a process wrote to a stream when it is given up:
the last `missed` lines are not told. What is not captured needs nobody to read
it. -/
def RunOptions.toldBut (o : RunOptions) (missed : Nat) (name : String) (stream : Stream)
    (bytes : List UInt8) : List Emission :=
  let told := o.told name stream bytes
  if o.capture then told.take (told.length - missed) else told

/-- What has been let out of all that a process wrote when it is given up. -/
def RunOptions.toldInTime {launch : Launch} (o : RunOptions) (name : String)
    (p : Performance launch) : List Emission :=
  o.toldBut (p.missed .stdout) name .stdout p.stdout
    ++ o.toldBut (p.missed .stderr) name .stderr p.stderr

/-- What is let out of the pieces of output that come late. -/
def RunOptions.toldLate (o : RunOptions) (name : String)
    (late : List (Stream × List UInt8)) : List Emission :=
  late.flatMap fun (stream, bytes) => o.told name stream bytes

/-- Performs the action of a task. -/
def Host.performAction (h : Host σ) (o : RunOptions) (task : Task) (action : Action) (s : σ) :
    Attempt σ Finished :=
  let launch := o.launch task action
  let started := Emission.event (.task (.started task.name action.line))
  match h.perform s launch with
  | (.error error, t) =>
    let operation := s!"spawn task {task.name} ({action.command})"
    ⟨.error (.io error operation (some launch.directory)), [started], [], t⟩
  | (.ok p, t) =>
    let inTime := o.toldInTime task.name p
    match p.ending with
    | .overran limited =>
      let seconds := launch.limit.get limited / 1000
      let notice := Emission.event (.task (.timedOut task.name (clamp64 seconds)))
      ⟨.error (.taskTimedOut task.name seconds), started :: inTime ++ [notice], [], t⟩
    | .cancelled => ⟨.error (.cancelled (some task.name)), started :: inTime, [], t⟩
    | .lost error late =>
      ⟨.error (.io error s!"wait for task {task.name}" none), started :: inTime,
        o.toldLate task.name late, t⟩
    | .byItself status =>
      if !status.isSuccess && (h.cancelled t || status.isInterrupt) then
        ⟨.error (.cancelled (some task.name)), started :: inTime, [], t⟩
      else
        let completed := TaskEvent.completed task.name status.isSuccess
          (status.code?.map Int32.ofInt) (clamp64 (h.now t - h.now s))
        ⟨.ok ⟨status, o.captured p.stdout, o.captured p.stderr⟩,
          started :: o.toldAll task.name p ++ [.event (.task completed)], [], t⟩

end TaskMill
