import TaskMill.Fault
import TaskMill.Json.Basic
/-!
# TaskMill — failures and exit codes

How a command ends when it cannot do what it was asked for. Every fault becomes
one of five kinds of **failure**, each with its exit code, so that a caller can
tell a wrong task file from a task that went wrong:

* configuration and command line — `2`
* a failed task — the status of its process, never `0`
* a timeout — `124`
* a cancellation — `130`
* the operating system — `3`
-/

namespace TaskMill

-- ---------------------------------------------------------------------------
-- Exit codes
-- ---------------------------------------------------------------------------

namespace ExitCode

/-- All went well. -/
def ok : Int := 0

/-- A task failed without a status that can be passed on. -/
def taskFailed : Int := 1

/-- The command line or the task file is wrong. -/
def usage : Int := 2

/-- The operating system refused something. -/
def io : Int := 3

/-- A task took longer than it was allowed to. -/
def timeout : Int := 124

/-- The run was interrupted: 128 and the number of the signal. -/
def interrupted : Int := 130

/-- The exit code for a failed task: the status of its process, or one for a
process that a signal ended and for a status that would look like success. -/
def ofStatus : Option Int → Int
  | some status => if status = 0 then taskFailed else status
  | none => taskFailed

end ExitCode

-- ---------------------------------------------------------------------------
-- Failures
-- ---------------------------------------------------------------------------

/-- Why a command failed, as it is told to whoever gave it. -/
inductive Failure where
  | config (message : String) (help : Option String)
  | task (message : String) (status : Int) (help : Option String)
  | timeout (message : String) (help : Option String)
  | cancelled (message : String)
  | io (message : String) (help : Option String)
  deriving DecidableEq, Inhabited

namespace Failure

/-- The sentence that tells a failure. -/
def message : Failure → String
  | config message _ | task message _ _ | timeout message _ | cancelled message
  | io message _ => message

/-- The advice that goes with a failure. -/
def help : Failure → Option String
  | config _ help | task _ _ help | timeout _ help | io _ help => help
  | cancelled _ => none

/-- The stable name of a kind of failure. -/
def kind : Failure → String
  | config .. => "config"
  | task .. => "task"
  | timeout .. => "timeout"
  | cancelled .. => "cancelled"
  | io .. => "io"

/-- The name of a kind of failure in diagnostics. -/
def code (f : Failure) : String := "tend::cli::" ++ f.kind

/-- The exit code of a failed command. -/
def exitCode : Failure → Int
  | config .. => ExitCode.usage
  | task _ status _ => status
  | timeout .. => ExitCode.timeout
  | cancelled .. => ExitCode.interrupted
  | io .. => ExitCode.io

/-- The failure that a fault leads to. -/
def ofFault (fault : Fault) : Failure :=
  match fault with
  | .duplicateTask .. | .unknownTask .. | .cyclicDependency .. | .noTask =>
    config fault.message fault.help
  | .configuration message _ => config s!"Invalid task file: {message}" fault.help
  | .taskFailed _ status _ => task fault.message (ExitCode.ofStatus status) fault.help
  | .taskTimedOut .. => timeout fault.message fault.help
  | .cancelled .. => cancelled fault.message
  | .io source operation path =>
    let place := (path.map fun p => s!" on {p.text}").getD ""
    io s!"I/O {operation} failed{place}: {source.message}"
      (some "Check file permissions and ensure the path exists")

/-- A failure seen after an interruption: whatever it was, it counts as a
cancellation, so that a task ended by the same interruption is not told as a
failed one. -/
def orCancelled (f : Failure) (interrupted : Bool) : Failure :=
  match f with
  | cancelled message => cancelled message
  | other => if interrupted then cancelled "Cancelled" else other

end Failure

-- ---------------------------------------------------------------------------
-- Envelopes
-- ---------------------------------------------------------------------------

namespace Envelope

/-- The answer of a command that went well. -/
def ok (data : Json) : Json := .obj [("status", .str "ok"), ("data", data)]

/-- The answer of a command that failed. -/
def error (detail : Json) : Json := .obj [("status", .str "error"), ("error", detail)]

/-- The answer of a command that ended in failure `f`. -/
def ofFailure (f : Failure) : Json :=
  error (.obj [("code", .str f.kind), ("exit_code", .int f.exitCode), ("message", .str f.message)])

end Envelope

end TaskMill
