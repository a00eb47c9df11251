import TaskMill.Command.Answer
import TaskMill.CommandLine.Basic
import TaskMill.Run.Plan
import TaskMill.Workspace
/-!
# TaskMill — carrying out a command line

From what was asked for to an answer or a failure. A new task file is made
without looking at any other. Everything else needs a task file that is free of
faults; only a command line without a mode goes on to run a task.
-/

namespace TaskMill

variable {σ : Type}

/-- The options of a run: the command line first, then the settings. -/
def CommandLine.runOptions (c : CommandLine) (p : Project) : RunOptions where
  capture := c.capture || c.json || p.settings.captureOutput.getD false
  root := p.root
  defaultTimeout := (c.timeout.map fun secs => secs.toNat * 1000).or p.settings.defaultTimeout
  grace := RunOptions.usualGrace

/-- What carrying out a command line came to: an answer or a failure, what was
let out, what is let out late, and the state of the host afterwards. -/
structure Response (σ : Type) where
  result : Except Failure Answer
  emissions : List Emission
  late : List Emission
  world : σ

/-- The response to a command that only looked. -/
def Response.still (result : Except Fault Answer) (s : σ) : Response σ :=
  ⟨result.mapError .ofFault, [], [], s⟩

namespace Workspace

/-- Makes a new task file. -/
def create (w : Workspace σ) (c : CommandLine) (s : σ) : Response σ :=
  let path := c.file.getD ⟨TaskFile.defaultName⟩
  let (made, t) := w.writeStarter path s
  .still (made.map fun _ => .created path) t

/-- Carries out a command line on a project. -/
def executeOn (w : Workspace σ) (c : CommandLine) (p : Project) (s : σ) : Response σ :=
  if c.list then .still (.ok (.tasks (p.registry.tasks.map Task.summary))) s
  else if c.check then .still (.ok (.sound p.path p.registry.size)) s
  else
    match p.target c.task with
    | .error fault => .still (.error fault) s
    | .ok target =>
      if c.dryRun then
        .still ((p.registry.plan target).map fun plan => .plan (plan.map Task.summary)) s
      else
        let attempt := w.run p.registry (c.runOptions p) target s
        ⟨(attempt.result.map Answer.ran).mapError .ofFault, attempt.emissions, attempt.late,
          attempt.world⟩

/-- What is done on a project is told by the mode. -/
theorem executeOn_eq (w : Workspace σ) {c : CommandLine} (hInit : c.mode ≠ some .init) (p : Project)
    (s : σ) : w.executeOn c p s =
      match c.mode with
      | some .list => .still (.ok (.tasks (p.registry.tasks.map Task.summary))) s
      | some .check => .still (.ok (.sound p.path p.registry.size)) s
      | mode =>
        match p.target c.task with
        | .error fault => .still (.error fault) s
        | .ok target =>
          if mode = some .dryRun then
            .still ((p.registry.plan target).map fun plan => .plan (plan.map Task.summary)) s
          else
            let attempt := w.run p.registry (c.runOptions p) target s
            ⟨(attempt.result.map Answer.ran).mapError .ofFault, attempt.emissions, attempt.late,
              attempt.world⟩ := by
  have hNot : c.init = false := by simpa [CommandLine.mode_eq_init_iff] using hInit
  rw [executeOn, CommandLine.mode_eq, hNot]
  cases c.list <;> cases c.check <;> cases c.dryRun <;> cases p.target c.task <;> simp

/-- Carries out a command line. -/
def execute (w : Workspace σ) (c : CommandLine) (s : σ) : Response σ :=
  if c.init then w.create c s
  else
    match w.locate c.file s with
    | .error failure => ⟨.error failure, [], [], s⟩
    | .ok path =>
      match w.load path s with
      | .error fault => .still (.error fault) s
      | .ok project => w.executeOn c project s

theorem execute_of_init (w : Workspace σ) {c : CommandLine} (s : σ) (hInit : c.mode = some .init) :
    w.execute c s = w.create c s :=
  if_pos (CommandLine.mode_eq_init_iff.mp hInit)

theorem execute_of_not_init (w : Workspace σ) {c : CommandLine} (s : σ)
    (hInit : c.mode ≠ some .init) : w.execute c s =
      match w.locate c.file s with
      | .error failure => ⟨.error failure, [], [], s⟩
      | .ok path =>
        match w.load path s with
        | .error fault => .still (.error fault) s
        | .ok project => w.executeOn c project s :=
  if_neg fun hFlag => hInit (CommandLine.mode_eq_init_iff.mpr hFlag)

end Workspace

end TaskMill
