import TaskMill.Command.Output
import TaskMill.Survey
import Std.Time.DateTime.Timestamp
/-!
# TaskMill — the program

Surveys the world, carries out the command line on the survey, and then writes
what came of it. All decisions are the library's.
-/

namespace TaskMill

-- ---------------------------------------------------------------------------
-- Looking
-- ---------------------------------------------------------------------------

/-- The refusal with an error number, which some actions tell with a minus. -/
def numbered (number : UInt32) : SystemError :=
  .os number.toInt32.toInt.natAbs

/-- The refusal that an error of an action tells. -/
def refusal : IO.Error → SystemError
  | .alreadyExists _ number _ | .otherError number _ | .resourceBusy number _
  | .resourceVanished number _ | .unsupportedOperation number _ | .hardwareFault number _
  | .unsatisfiedConstraints number _ | .illegalOperation number _ | .protocolError number _
  | .timeExpired number _ | .interrupted _ number _ | .noFileOrDirectory _ number _
  | .invalidArgument _ number _ | .permissionDenied _ number _ | .resourceExhausted _ number _
  | .inappropriateType _ number _ | .noSuchThing _ number _ => numbered number
  | .unexpectedEof => .other "unexpected end of file"
  | .userError text => .other text

/-- Tries an action. -/
def attempt {α : Type} (action : IO α) : BaseIO (Except SystemError α) := do
  return (← action.toBaseIO).mapError refusal

/-- Whether a path names a file. -/
def seesFile (path : Path) : IO Bool := do
  match ← attempt (do ((← IO.currentDir) / path.text).metadata) with
  | .ok data => return data.type == .file
  | .error _ => return false

/-- Reads the text of a file. -/
def seeText (path : Path) : IO (Path × Except SystemError String) := do
  let bytes ← attempt (IO.FS.readBinFile path.text)
  return (path, bytes.bind fun bytes => match Text.decode? bytes.toList with
    | some text => .ok text
    | none => .error .notUtf8)

/-- Finds out when what a path names was modified last. -/
def seeTime (path : Path) : IO (Path × Except SystemError Int) := do
  let data ← attempt (do ((← IO.currentDir) / path.text).metadata)
  return (path, data.map fun d => d.modified.sec * 1000000000 + (d.modified.nsec.toNat : Int))

/-- A random identifier of the fourth version, with room to count up from it. -/
def drawId : IO EventId := do
  let bytes ← IO.getRandomBytes 16
  let drawn := bytes.toList.foldl (fun n b => n * 256 + b.toNat) 0
  return ⟨BitVec.ofNat 128 drawn &&& 0xFFFFFFFFFFFF0FFF3FFFFFFF00000000#128
    ||| 0x00000000000040008000000000000000#128⟩

/-- The time. -/
def seeInstant : IO Timestamp := do
  let nanos := (← Std.Time.Timestamp.now).toNanosecondsSinceUnixEpoch.toInt
  return ⟨Int.fdiv nanos 1000000000, (Int.fmod nanos 1000000000).toNat⟩

/-- Finds out the working directory. -/
def seeDirectory : IO (Except SystemError Path) := do
  return (← attempt IO.currentDir).map fun directory => ⟨directory.toString⟩

/-- Surveys what a command line can need, but for artifacts. -/
def surveyFiles (c : CommandLine) (vacancy : Except SystemError Unit) : IO Survey := do
  let directory ← seeDirectory
  let files ← (directory.toOption.toList.flatMap taskFilesFor).filterM seesFile
  let texts ← (c.file.toList ++ files).mapM seeText
  return ⟨directory, files, texts, [], vacancy, .ok (), ← drawId, ← seeInstant, none⟩

/-- Surveys the artifacts too, if there is a project that has some. -/
def surveyArtifacts (c : CommandLine) (s : Survey) : IO Survey := do
  match (Survey.workspace.locate c.file s).map (Survey.workspace.load · s) with
  | .ok (.ok project) =>
    let artifacts := project.registry.tasks.filterMap (·.kind.artifact?)
    return { s with times := ← artifacts.mapM (seeTime <| project.root.join ·) }
  | _ => return s

-- ---------------------------------------------------------------------------
-- Writing
-- ---------------------------------------------------------------------------

/-- Writes what is to be written to a stream. -/
def Output.write (output : Output) : IO Unit := do
  let stream ← match output.stream with
    | .stdout => IO.getStdout
    | .stderr => IO.getStderr
  stream.write ⟨output.bytes.toArray⟩
  stream.flush

/-- Takes the place of the new task file, if the command line asks for one. -/
def openNew (c : CommandLine) : IO (Except SystemError IO.FS.Handle) := do
  if c.init then
    attempt (IO.FS.Handle.mk (c.file.getD ⟨TaskFile.defaultName⟩).text .writeNew)
  else return .error .notImplemented

/-- Writes the new task file, if there is to be one. -/
def fillOpened (opened : Except SystemError IO.FS.Handle) (s : Survey) :
    IO (Except SystemError Unit) :=
  match opened, s.written with
  | .ok handle, some text => attempt (do handle.putStr text; handle.flush)
  | _, _ => return .ok ()

/-- Carries out a command line in the real world. What is to be written to a new
task file is known only once that is done, so it is done again if it cannot be
written. -/
def CommandLine.carryOut (c : CommandLine) : IO Int := do
  let opened ← openNew c
  let survey ← surveyArtifacts c (← surveyFiles c (opened.map fun _ => ()))
  let filling ← fillOpened opened (Survey.workspace.respond c survey).world
  let finish := Survey.workspace.respond c { survey with filling }
  finish.outputs.forM Output.write
  return finish.exitCode

end TaskMill

open TaskMill in
/-- The program. -/
def main (arguments : List String) : IO UInt32 := do
  let exitCode ← match CommandLine.parse arguments with
    | .error misuse =>
      misuse.outcome.2.write
      pure misuse.outcome.1
    | .ok c => c.carryOut
  return UInt32.ofNat exitCode.toNat
