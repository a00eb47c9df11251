import TaskMill.Event.Basic
import TaskMill.Path
import TaskMill.SystemError
/-!
# TaskMill — the host

What a run needs from the world around it, and nothing more. A **host** has
states of its own; whatever it does to them is up to it, so what holds of every
host holds whatever files, processes and interruptions a run meets.

* time passes, and a cancellation can arrive, wherever the run lets the host
  `elapse` or has it `perform` a process
* `perform` starts a process and waits until it ends by itself or is ended: by
  the cancellation, or by the limit, which only a process with a limit meets
-/

namespace TaskMill

-- ---------------------------------------------------------------------------
-- Processes
-- ---------------------------------------------------------------------------

/-- What a process is started with. -/
structure Launch where
  command : String
  args : List String
  /-- Where the process works. -/
  directory : Path
  /-- Whether what the process writes is kept from the terminal. -/
  capture : Bool
  /-- How many milliseconds the process may take. -/
  limit : Option Nat
  /-- How many milliseconds the process may take to end when it is told to. -/
  grace : Nat
  deriving DecidableEq, Inhabited

/-- How a process ended by itself. -/
inductive ExitStatus where
  /-- It exited with a code. -/
  | exited (code : UInt8)
  /-- A signal ended it. -/
  | killed (signal : Nat)
  deriving DecidableEq, Inhabited

namespace ExitStatus

/-- Whether the status tells success. -/
def isSuccess : ExitStatus → Bool
  | exited code => code = 0
  | killed _ => false

/-- The exit code; nothing if a signal ended the process. -/
def code? : ExitStatus → Option Int
  | exited code => some code.toNat
  | killed _ => none

/-- Whether the signal of an interruption from the keyboard ended the
process. -/
def isInterrupt : ExitStatus → Bool
  | killed signal => signal = 2
  | exited _ => false

end ExitStatus

/-- How a process with the limit `limit` came to its end. -/
inductive Ending (limit : Option Nat) where
  | byItself (status : ExitStatus)
  /-- The cancellation arrived. -/
  | cancelled
  /-- It took longer than it was allowed to. -/
  | overran (limited : limit.isSome)
  /-- It was started, but the operating system refused to tell how it ended. It is
  not waited for any longer then, but whoever reads its streams is not told to
  stop: `late` is what they still bring, piece by piece. -/
  | lost (error : SystemError) (late : List (Stream × List UInt8))

/-- What performing a process came to: its end, and what it wrote. -/
structure Performance (launch : Launch) where
  ending : Ending launch.limit
  stdout : List UInt8
  stderr : List UInt8
  /-- How many lines at the end of a stream nobody had read when the process was
  given up, if it was. -/
  missed : Stream → Nat

-- ---------------------------------------------------------------------------
-- The world
-- ---------------------------------------------------------------------------

/-- A world with states of type `σ`, as far as a run takes notice of it. -/
structure Host (σ : Type) where
  /-- Time passes. -/
  elapse : σ → σ
  /-- Whether the run is to be cancelled. -/
  cancelled : σ → Bool
  /-- The time, in milliseconds. -/
  now : σ → Nat
  /-- When what a path names was modified last. -/
  modified : σ → Path → Except SystemError Int
  /-- Performs a process, if it can be started. -/
  perform : σ → (launch : Launch) → Except SystemError (Performance launch) × σ

end TaskMill
