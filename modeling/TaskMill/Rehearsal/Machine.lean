import TaskMill.Rehearsal.Script
import TaskMill.Run.Basic
import TaskMill.Word
/-!
# TaskMill — a machine for rehearsals

A host in memory, on which a run can be rehearsed: files, a clock that only
sleeping processes move, and a cancellation that arrives at a given time. It
knows one program, named `act`, whose arguments are instructions. Any other
command cannot be started and is refused in the way an operating system refuses
it: a file that is not a program, a name that is not found, and so on.

Entries changed by processes are younger than any that are dated by hand, and
those changed by a later process are younger than those changed by an earlier
one.
-/

namespace TaskMill

/-- A computer with one program. -/
structure Machine where
  files : Files
  /-- The working directory. -/
  home : List String
  /-- The time, in milliseconds. -/
  clock : Nat
  /-- How many processes have been started. -/
  started : Nat
  /-- When the cancellation arrives. -/
  cancelAt : Option Nat

namespace Machine

/-- The name of the program. -/
def program : String := "act"

/-- The time that entries get which are changed when `n` processes have been
started; it is later than any time that is set by hand. -/
def instantAfter (n : Nat) : Int := Word.count 80 + Word.count 20 * n

/-- Whether the cancellation has arrived. -/
def isCancelled (m : Machine) : Bool :=
  m.cancelAt.any (· ≤ m.clock)

/-- Fails if a command names no program, for a process that works at
`place`. -/
def findProgram (m : Machine) (place : List String) (command : String) :
    Except SystemError Unit :=
  if command = program then .ok ()
  else if '/' ∈ command.toList then
    match m.files.find place ⟨command⟩ with
    | .error error => .error error
    | .ok _ => .error .denied
  else if Route.longestName < command.utf8ByteSize then .error .nameTooLong
  else if command = "." || command = ".." then .error .denied
  else .error .notFound

/-- Where a process works, if it can be started. -/
def accept (m : Machine) (launch : Launch) : Except SystemError (List String) := do
  let texts := launch.command :: launch.directory.text :: launch.args
  if texts.any fun text => '\x00' ∈ text.toList then throw .nulInCommand
  let place ← m.files.findDirectory m.home launch.directory
  m.findProgram place launch.command
  return place

/-- The limit of a process started now as a time, if the process has one. -/
def overrunAt (m : Machine) (limit : Option Nat) : Option (Nat × Ending limit) :=
  match limit with
  | some ms => some (m.clock + ms, .overran rfl)
  | none => none

/-- When a process started now is told to end, and why. -/
def summonsOf (m : Machine) (limit : Option Nat) : Option (Nat × Ending limit) :=
  match m.overrunAt limit, m.cancelAt.map fun time => (time, Ending.cancelled) with
  | some overrun, some cancel => some (if cancel.1 < overrun.1 then cancel else overrun)
  | some overrun, none => some overrun
  | none, cancel => cancel

/-- Performs a process. -/
def perform (m : Machine) (launch : Launch) : Except SystemError (Performance launch) × Machine :=
  match m.accept launch with
  | .error error => (.error error, m)
  | .ok place =>
    let summons := m.summonsOf launch.limit
    let actor : Actor := ⟨m.files, instantAfter (m.started + 1), m.clock, false, [], []⟩
    let (actor, status) := Actor.play place (summons.map fun s => ⟨s.1, launch.grace⟩)
      (launch.args.map Instruction.ofArgument) actor
    let ending := match summons with
      | some (time, reason) => if time ≤ actor.clock then reason else .byItself status
      | none => .byItself status
    (.ok ⟨ending, actor.stdout, actor.stderr, fun _ => 0⟩,
      { m with files := actor.files, clock := actor.clock, started := m.started + 1 })

/-- The machine as a host. -/
def host : Host Machine where
  elapse := id
  cancelled := isCancelled
  now m := m.clock
  modified m path := m.files.modified m.home path
  perform := perform

end Machine

end TaskMill
