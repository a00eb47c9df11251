import TaskMill.Command.Execute
import TaskMill.CommandLine.Parse
import TaskMill.Event.Line
import TaskMill.Event.Record
import TaskMill.Text.Utf8
/-!
# TaskMill — what a command writes

The bytes that a command writes to the two streams, and its exit code. In JSON
everything goes to the standard output, one value per line: the events on
record, and at last the envelope of the answer or the failure. In words, events
are lines for the terminal, the answer goes to the standard output and a
failure, with its code and its advice, to the standard error stream.

What is let out late is not waited for, so a part of it may be written after
the answer.
-/

namespace TaskMill

variable {σ : Type}

/-- Bytes written to a stream. -/
structure Output where
  stream : Stream
  bytes : List UInt8
  deriving DecidableEq, Inhabited

namespace Output

/-- A text written to a stream. -/
def ofText (stream : Stream) (text : String) : Output := ⟨stream, Text.encode text⟩

/-- A JSON value as a line of the standard output. -/
def ofJson (value : Json) : Output := ofText .stdout (value.compact ++ "\n")

/-- All bytes written to a stream. -/
def allTo (stream : Stream) (outputs : List Output) : List UInt8 :=
  (outputs.filter (·.stream = stream)).flatMap Output.bytes

end Output

/-- The record of an event. -/
def Event.record (event : Event) (stamp : EventId × Timestamp) : EventRecord :=
  ⟨stamp.1, stamp.2, event.target, event⟩

/-- How a command line has events shown. -/
def CommandLine.style (c : CommandLine) : Style := ⟨false, c.verbose⟩

/-- What is written for an event. -/
def CommandLine.eventOutput (c : CommandLine) (event : Event) (stamp : EventId × Timestamp) :
    Option Output :=
  if c.json then some (.ofJson (event.record stamp).toJson)
  else (c.style.line event).map fun line => .ofText line.stream (line.text ++ "\n")

/-- What is written for something that a run lets out. -/
def CommandLine.emissionOutput (c : CommandLine) (stamp : Nat → EventId × Timestamp)
    (emission : Emission × Nat) : Option Output :=
  match emission.1 with
  | .event event => c.eventOutput event (stamp emission.2)
  | .passed stream bytes => some ⟨stream, bytes⟩

/-- A text whose lines, but for the first, stand below the first. -/
def indented (text : String) : String :=
  "\n    ".intercalate (Text.lines text)

/-- A failure in words. -/
def Failure.text (f : Failure) : String :=
  let help := (f.help.map fun advice => s!"  help: {indented advice}\n").getD ""
  s!"{f.code}\n\n  × {indented f.message}\n{help}"

/-- What is written at last. -/
def CommandLine.resultOutput (c : CommandLine) : Except Failure Answer → Output
  | .ok answer => if c.json then .ofJson (Envelope.ok answer.json) else .ofText .stdout answer.text
  | .error failure =>
    if c.json then .ofJson (Envelope.ofFailure failure) else .ofText .stderr failure.text

/-- The end of a command: its exit code, what it wrote, and the state of the
host afterwards. -/
structure Finish (σ : Type) where
  exitCode : Int
  outputs : List Output
  world : σ

/-- The exit code of a command. -/
def ExitCode.ofResult : Except Failure Answer → Int
  | .ok _ => ExitCode.ok
  | .error failure => failure.exitCode

/-- Carries out a command line and tells what came of it. Whatever failed counts
as cancelled if the cancellation has arrived by then. -/
def Workspace.respond (w : Workspace σ) (c : CommandLine) (s : σ) : Finish σ :=
  let response := w.execute c s
  let t := w.elapse response.world
  let result := response.result.mapError (·.orCancelled (w.cancelled t))
  let told := (response.emissions ++ response.late).zipIdx
  let before := response.emissions.length + w.heard t
  ⟨ExitCode.ofResult result,
    (told.take before).filterMap (c.emissionOutput (w.stamp s)) ++ c.resultOutput result ::
      (told.drop before).filterMap (c.emissionOutput (w.stamp s)), t⟩

/-- What is written for a command line that is not carried out, and the exit
code. -/
def Misuse.outcome : Misuse → Int × Output
  | .help => (ExitCode.ok, .ofText .stdout CommandLine.helpText)
  | .version => (ExitCode.ok, .ofText .stdout CommandLine.versionText)
  | .unknown => (ExitCode.usage, .ofText .stderr "error: unexpected argument\n")
  | .badValue => (ExitCode.usage, .ofText .stderr "error: missing or invalid value\n")
  | .badNumber => (ExitCode.usage, .ofText .stderr "error: invalid number\n")
  | .unwantedValue => (ExitCode.usage, .ofText .stderr "error: unexpected value for a flag\n")
  | .conflict => (ExitCode.usage, .ofText .stderr "error: conflicting or repeated arguments\n")

/-- The whole program: from arguments to an exit code. -/
def Workspace.main (w : Workspace σ) (arguments : List String) (s : σ) : Finish σ :=
  match CommandLine.parse arguments with
  | .error misuse => ⟨misuse.outcome.1, [misuse.outcome.2], s⟩
  | .ok c => w.respond c s

end TaskMill
