import TaskMill.Event.Basic
import TaskMill.Files.Change
import TaskMill.Host
import TaskMill.Text.Digits
/-!
# TaskMill — scripted processes

A program that does what its arguments say, one after the other, so that task
files can be rehearsed without the programs they are made for. Each argument is
one **instruction**: a word, and after the first colon its text. Instructions
take no time, sleeping apart. An argument that is no instruction does nothing.

A process can be told to end at some time. It then ends at once, unless it
ignores being told; in that case it has until the end of a period of grace.
-/

namespace TaskMill

/-- What an argument makes a scripted process do. -/
inductive Instruction where
  | write (stream : Stream) (bytes : List UInt8)
  /-- Puts a line at the end of the file `log`. -/
  | log (line : String)
  | touch (path : Path) (seconds : Int)
  | remove (path : Path)
  | sleep (ms : Nat)
  | exit (code : UInt8)
  /-- From now on the process does not end when it is told to. -/
  | ignore
  | die (signal : Nat)
  | nothing
  deriving DecidableEq, Inhabited

namespace Instruction

/-- The bytes that pairs of hexadecimal digits denote. -/
def hexBytes : List Char → List UInt8
  | a :: b :: rest =>
    match Text.hexDigit? a, Text.hexDigit? b with
    | some x, some y => UInt8.ofNat (16 * x + y) :: hexBytes rest
    | _, _ => []
  | _ => []

/-- The signals by name. -/
def signals : List (String × Nat) := [("INT", 2), ("TERM", 15), ("KILL", 9)]

/-- A file and the time it is given, with a sign between them. -/
def touchOf (text : List Char) : Instruction :=
  let time := (text.reverse.takeWhile (· ≠ '@')).reverse
  let path := text.take (text.length - time.length - 1)
  match Text.readInteger? time with
  | some seconds => touch ⟨String.ofList path⟩ seconds
  | none => nothing

/-- The instruction of a word and its text. -/
def ofWord (word : String) (text : List Char) : Instruction :=
  let bytes := Text.encode (String.ofList text)
  match word with
  | "out" => write .stdout (bytes ++ [10])
  | "err" => write .stderr (bytes ++ [10])
  | "outraw" => write .stdout bytes
  | "errraw" => write .stderr bytes
  | "outhex" => write .stdout (hexBytes text)
  | "errhex" => write .stderr (hexBytes text)
  | "outn" =>
    let lines := (List.range ((Text.readDecimal? text).getD 0)).map fun n => s!"line {n + 1}\n"
    write .stdout (Text.encode (String.join lines))
  | "log" => log (String.ofList text)
  | "touch" => touchOf text
  | "rm" => remove ⟨String.ofList text⟩
  | "sleep" => sleep ((Text.readDecimal? text).getD 0)
  | "exit" =>
    match Text.readInteger? text with
    | some code => exit (UInt8.ofNat (code % 256).toNat)
    | none => nothing
  | "ignore" => ignore
  | "kill" => ((signals.lookup (String.ofList text)).map die).getD nothing
  | _ => nothing

/-- The instruction of an argument. -/
def ofArgument (argument : String) : Instruction :=
  let cs := argument.toList
  ofWord (String.ofList (cs.takeWhile (· ≠ ':'))) ((cs.dropWhile (· ≠ ':')).drop 1)

end Instruction

-- ---------------------------------------------------------------------------
-- Following a script
-- ---------------------------------------------------------------------------

/-- A scripted process. -/
structure Actor where
  files : Files
  /-- The time that entries get which are changed now. -/
  instant : Int
  /-- The time, in milliseconds. -/
  clock : Nat
  ignoring : Bool
  stdout : List UInt8
  stderr : List UInt8

/-- When a process is told to end, and how long it may then take. -/
structure Summons where
  time : Nat
  grace : Nat

namespace Actor

/-- When a process ends that has been told to, and by which signal. -/
def lastMoment (a : Actor) (summons : Summons) : Nat × Nat :=
  if a.ignoring then (summons.time + summons.grace, 9) else (summons.time, 15)

/-- The files after a change, or as they were if it is refused. -/
def changing (a : Actor) (change : Files → Except SystemError Files) : Actor :=
  match change a.files with
  | .ok files => { a with files }
  | .error _ => a

/-- A process after an instruction that takes no time and does not end it. -/
def follow (a : Actor) (place : List String) : Instruction → Actor
  | .write .stdout bytes => { a with stdout := a.stdout ++ bytes }
  | .write .stderr bytes => { a with stderr := a.stderr ++ bytes }
  | .log line => a.changing fun fs =>
      fs.append a.instant place ⟨"log"⟩ (Text.encode (line ++ "\n"))
  | .touch path seconds => a.changing fun fs => fs.touch a.instant place path seconds
  | .remove path => a.changing fun fs => fs.remove a.instant place path
  | .ignore => { a with ignoring := true }
  | .sleep ms => { a with clock := a.clock + ms, instant := a.instant + 1 }
  | .exit _ => a
  | .die _ => a
  | .nothing => a

/-- Whether a process is ended before it is `ms` milliseconds older, and when
and by which signal. -/
def endedWithin (a : Actor) (summons : Option Summons) (ms : Nat) : Option (Nat × Nat) :=
  match summons.map a.lastMoment with
  | some (time, signal) =>
    if time < a.clock + ms || time ≤ a.clock then some (max time a.clock, signal) else none
  | none => none

/-- How many milliseconds an instruction takes. -/
def timeOf : Instruction → Nat
  | .sleep ms => ms
  | _ => 0

/-- A process that works in the directory at `place` and follows instructions,
unless it is told to end before; and how it ends. -/
def play (place : List String) (summons : Option Summons) :
    List Instruction → Actor → Actor × ExitStatus
  | [], a => (a, .exited 0)
  | instruction :: rest, a =>
    match a.endedWithin summons (timeOf instruction) with
    | some (time, signal) => ({ a with clock := time }, .killed signal)
    | none =>
      match instruction with
      | .exit code => (a, .exited code)
      | .die signal => (a, .killed signal)
      | other => play place summons rest (a.follow place other)

end Actor

end TaskMill
