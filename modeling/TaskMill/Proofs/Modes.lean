import TaskMill.Proofs.Arguments
import TaskMill.Proofs.Creation
import TaskMill.Proofs.Watching
import TaskMill.Rehearsal.Bench
/-!
# TaskMill — commands that do not run

A command line asks for one mode at most (`CommandLine.parse_spec`). A command with
a mode starts nothing and lets nothing out, and the only thing in the world that it
can change is the place of a new task file (`Workspace.deeds_of_mode`). In a tree of
files no file is touched by that: there is one more, which holds the starter, or the
beginning of it where there was no room for more (`Machine.Made`).

Where something is already in that place the command fails and leaves all as it was.
The failure says that the place is taken, with two exceptions. If the path leads
through a directory that may not be searched, that is told. If the path ends in a name
and a slash, only a directory can be meant, and the operating system refuses to make a
file of that kind before it looks whether there is one.

## Results

* `Machine.create_of_unlocked_find` — what comes of making a file where there is
  something.
* `Machine.create_cases` — what comes of making a file.
* `CommandLine.mode_changes_no_file` — all this together.
-/

namespace TaskMill

-- ---------------------------------------------------------------------------
-- On a machine
-- ---------------------------------------------------------------------------

namespace Machine

variable {m : Machine} {c : CommandLine} {place : List String} {entry : FileEntry}

theorem createNew_of_error {path : Path} {error : SystemError}
    (hNew : m.files.createNew (instantAfter m.started) m.home path = .error error) :
    workspace.createNew m path = (.error error, m) := by
  show createNew m path = _
  rw [createNew, hNew]

theorem createNew_of_ok {path : Path} {files : Files}
    (hNew : m.files.createNew (instantAfter m.started) m.home path = .ok files) :
    workspace.createNew m path = (.ok (), { m with files }) := by
  show createNew m path = _
  rw [createNew, hNew]

/-- A text is written where its path leads. -/
theorem fillNew_of_filePlace {path : Path} {found : Option FileEntry}
    (hPlace : m.files.filePlace m.home path = .ok (place, found)) (text : String) :
    workspace.fillNew m path text =
      ((m.files.write (instantAfter m.started) place (Text.encode text)).1,
        { m with
          files := (m.files.write (instantAfter m.started) place (Text.encode text)).2 }) := by
  show fillNew m path text = _
  rw [fillNew, hPlace]

/-- How the operating system refuses to make a file where there is something. -/
def refusal (m : Machine) (path : Path) : SystemError :=
  if m.files.find m.home path = .error .denied then .denied
  else if path.asksForDirectory then .isDirectory
  else .alreadyExists

/-- **Nothing is made where there is something**, and the machine stays as it was. -/
theorem create_of_unlocked_find
    (hFind : m.files.unlocked.find m.home c.newFile = .ok (place, entry)) :
    workspace.create c m =
      ⟨.error (.ofFault (Workspace.vacancyFault c.newFile (m.refusal c.newFile))), [], [], m⟩ := by
  rw [Workspace.create_eq, Workspace.writeStarter,
    createNew_of_error (Files.createNew_of_unlocked_find hFind)]
  rfl

/-- A file has been made where a path leads, and nothing else has changed. -/
def Made (m : Machine) (path : Path) (bytes : List UInt8) (m' : Machine) : Prop :=
  ∃ place files, m.files.filePlace m.home path = .ok (place, none) ∧
    m.files.Gains place bytes files ∧ m' = { m with files }

/-- **What comes of making a file**: it is made and holds the starter, or the command
fails; then nothing has changed, or the file holds the beginning of the starter. -/
theorem create_cases (c : CommandLine) (hTree : m.files.IsTree) :
    (workspace.create c m).result = .ok (.created c.newFile) ∧
        m.Made c.newFile (Text.encode TaskFile.starter) (workspace.create c m).world ∨
      ∃ failure, (workspace.create c m).result = .error failure ∧
        ((workspace.create c m).world = m ∨ ∃ bytes, bytes <+: Text.encode TaskFile.starter ∧
          m.Made c.newFile bytes (workspace.create c m).world) := by
  rw [Workspace.create_eq, Workspace.writeStarter]
  cases hNew : m.files.createNew (instantAfter m.started) m.home c.newFile with
  | error error =>
    rw [createNew_of_error hNew]
    exact .inr ⟨_, rfl, .inl rfl⟩
  | ok files =>
    obtain ⟨place, hPlace, hGains⟩ := hTree.gains_of_createNew hNew
    obtain ⟨bytes, hPrefix, hFilled, hAll⟩ :=
      hGains.gains_of_write (instantAfter m.started) (Text.encode TaskFile.starter)
    -- the path leads to the new file, so that is what is written to
    have hWritten := fillNew_of_filePlace (m := { m with files }) (hGains.filePlace hPlace)
      TaskFile.starter
    simp only [createNew_of_ok hNew, hWritten]
    cases hEnd : (files.write (instantAfter m.started) place (Text.encode TaskFile.starter)).1 with
    | ok _ =>
      obtain rfl := hAll hEnd
      exact .inl ⟨rfl, place, _, hPlace, hFilled, rfl⟩
    | error error => exact .inr ⟨_, rfl, .inr ⟨bytes, hPrefix, place, _, hPlace, hFilled, rfl⟩⟩

theorem Made.keepsFiles {path : Path} {bytes : List UInt8} {m' : Machine}
    (h : m.Made path bytes m') (hTree : m.files.IsTree) :
    m'.files.IsTree ∧ m.files.KeepsFiles m'.files := by
  obtain ⟨place, files, -, hGains, rfl⟩ := h
  exact ⟨hGains.isTree hTree, hGains.keeps⟩

theorem keepsFiles_execute (hTree : m.files.IsTree) (hMode : c.mode.isSome = true) :
    (workspace.execute c m).world.files.IsTree ∧
      m.files.KeepsFiles (workspace.execute c m).world.files := by
  have hStill : m.files.IsTree ∧ m.files.KeepsFiles m.files :=
    ⟨hTree, fun place entry hEntry hFile => hEntry⟩
  by_cases hInit : c.mode = some .init
  · rw [workspace.execute_of_init m hInit]
    rcases create_cases c hTree with ⟨-, hMade⟩ | ⟨failure, -, hSame | ⟨bytes, -, hMade⟩⟩
    · exact hMade.keepsFiles hTree
    · rwa [hSame]
    · exact hMade.keepsFiles hTree
  · rwa [(workspace.execute_of_mode m hMode hInit).1]

end Machine

-- ---------------------------------------------------------------------------
-- On all accounts
-- ---------------------------------------------------------------------------

/-- **A mode changes no file.** An accepted command line sets the flag of one mode at
most, and no limit below one second. Whatever the workspace, all that a command makes
and writes is the new task file that it is asked for; with a mode it starts nothing and
lets nothing out, and apart from that file it leaves the world as it is. In a tree of
files no file is touched by making one, and nothing at all is where the place is taken:
then the command fails, of its configuration unless the place may not be looked for or
the path asks for a directory. -/
theorem CommandLine.mode_changes_no_file {arguments : List String} {c : CommandLine}
    (hParse : CommandLine.parse arguments = .ok c) :
    ((∀ mode, c.asksFor mode = true ↔ .mode mode ∈ Switch.ofArguments arguments) ∧
      (∀ first second, c.asksFor first = true → c.asksFor second = true → first = second) ∧
      (∀ mode, c.mode = some mode ↔ c.asksFor mode = true) ∧
      ∀ n, c.timeout = some n → 1 ≤ n.toNat) ∧
    (∀ (σ : Type) (w : Workspace σ) (s : σ),
      (w.watched.execute c (s, [])).forget Prod.fst = w.execute c s ∧
      (∀ path, .make path ∈ w.deeds c s ↔ c.mode = some .init ∧ path = c.newFile) ∧
      (∀ path text, .fill path text ∈ w.deeds c s ↔
        c.mode = some .init ∧ path = c.newFile ∧ text = TaskFile.starter ∧
          (w.createNew s c.newFile).1 = .ok ()) ∧
      (c.mode.isSome = true →
        ((w.execute c s).emissions = [] ∧ (w.execute c s).late = []) ∧
        w.deeds c s = (if c.mode = some .init then w.starterDeeds c.newFile s else []) ∧
        (∀ launch, .start launch ∉ w.deeds c s) ∧
        (w.execute c s).world =
          if c.mode = some .init then (w.writeStarter c.newFile s).2 else s)) ∧
    ∀ m : Machine,
      (m.files.IsTree → c.mode.isSome = true →
        (Machine.workspace.execute c m).world.files.IsTree ∧
          m.files.KeepsFiles (Machine.workspace.execute c m).world.files) ∧
      (m.files.IsTree → c.mode = some .init →
        (Machine.workspace.execute c m).result = .ok (.created c.newFile) ∧
            m.Made c.newFile (Text.encode TaskFile.starter)
              (Machine.workspace.execute c m).world ∨
          ∃ failure, (Machine.workspace.execute c m).result = .error failure ∧
            ((Machine.workspace.execute c m).world = m ∨
              ∃ bytes, bytes <+: Text.encode TaskFile.starter ∧
                m.Made c.newFile bytes (Machine.workspace.execute c m).world)) ∧
      ∀ found, c.mode = some .init → m.files.unlocked.find m.home c.newFile = .ok found →
        (Machine.workspace.execute c m).world = m ∧
        ∃ message help, (Machine.workspace.execute c m).result = .error
          (if m.files.find m.home c.newFile = .error .denied ∨ c.newFile.asksForDirectory
            then .io message help else .config message help) := by
  refine ⟨parse_spec hParse, fun σ w s => ⟨w.forget_watched c s [], w.make_mem_deeds c s,
    w.fill_mem_deeds c s, ?_⟩, fun m => ⟨Machine.keepsFiles_execute, ?_, ?_⟩⟩
  · intro hMode
    exact ⟨w.emissions_of_mode s hMode, w.deeds_of_mode s hMode, w.start_not_mem_deeds s hMode,
      w.world_of_mode s hMode⟩
  · intro hTree hInit
    rw [Machine.workspace.execute_of_init m hInit]
    exact Machine.create_cases c hTree
  · rintro ⟨place, entry⟩ hInit hFind
    rw [Machine.workspace.execute_of_init m hInit, Machine.create_of_unlocked_find hFind]
    refine ⟨rfl, ?_⟩
    unfold Machine.refusal
    by_cases hDenied : m.files.find m.home c.newFile = .error .denied
    · simp only [hDenied, true_or, if_true]
      exact ⟨_, _, rfl⟩
    · simp only [hDenied, false_or, if_false]
      cases c.newFile.asksForDirectory
      · exact ⟨_, _, rfl⟩
      · exact ⟨_, _, rfl⟩

namespace Shelf

/-- A machine with an empty directory and an empty file. -/
def machine : Machine where
  files :=
    ⟨[([], ⟨.directory, 0, .full⟩), (["d"], ⟨.directory, 0, .full⟩), (["t"], ⟨.file [], 0, .full⟩)],
      none⟩
  home := []
  clock := 0
  started := 0
  cancelAt := none

/-- The command to make a new task file. -/
def commandLine (file : String) : CommandLine :=
  { CommandLine.plain with init := true, file := some ⟨file⟩ }

theorem isTree : machine.files.IsTree where
  root := rfl
  parent place hSome := by
    have hMem : place ∈ [[], ["d"], ["t"]] := Table.isSome_lookup_iff.mp hSome
    simp only [List.mem_cons, List.not_mem_nil, or_false] at hMem
    rcases hMem with rfl | rfl | rfl <;> rfl

/-- A file is not overwritten. -/
theorem mode_changes_no_file_shelf :
    CommandLine.parse ["--init", "--file", "t"] = .ok (commandLine "t") ∧ machine.files.IsTree ∧
      machine.files.unlocked.find machine.home ⟨"t"⟩ = .ok (["t"], ⟨.file [], 0, .full⟩) ∧
      machine.files.KeepsFiles (Machine.workspace.execute (commandLine "t") machine).world.files ∧
      (Machine.workspace.execute (commandLine "t") machine).world = machine ∧
      ∃ message help, (Machine.workspace.execute (commandLine "t") machine).result =
        .error (.config message help) := by
  have hParse : CommandLine.parse ["--init", "--file", "t"] = .ok (commandLine "t") := rfl
  have hFind : machine.files.unlocked.find machine.home ⟨"t"⟩ =
      .ok (["t"], ⟨.file [], 0, .full⟩) := by
    decide
  obtain ⟨-, -, hMachine⟩ := CommandLine.mode_changes_no_file hParse
  obtain ⟨hKeeps, -, hTaken⟩ := hMachine machine
  obtain ⟨-, hFiles⟩ := hKeeps isTree rfl
  obtain ⟨hWorld, message, help, hResult⟩ := hTaken _ rfl hFind
  exact ⟨hParse, isTree, hFind, hFiles, hWorld, message, help, hResult⟩

/-- Where the path of a directory ends in a slash, the failure is not one of the
configuration. -/
theorem not_config_of_slash :
    CommandLine.parse ["--init", "--file", "d/"] = .ok (commandLine "d/") ∧
      machine.files.find machine.home ⟨"d/"⟩ = .ok (["d"], ⟨.directory, 0, .full⟩) ∧
      ∀ message help, (Machine.workspace.execute (commandLine "d/") machine).result ≠
        .error (.config message help) := by
  have hFind : machine.files.unlocked.find machine.home ⟨"d/"⟩ =
      .ok (["d"], ⟨.directory, 0, .full⟩) := by
    decide
  refine ⟨rfl, by decide, fun message help hConfig => ?_⟩
  rw [Machine.workspace.execute_of_init machine rfl,
    Machine.create_of_unlocked_find hFind] at hConfig
  cases hConfig

end Shelf

end TaskMill
