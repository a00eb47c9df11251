import TaskMill.Command.Output
import TaskMill.Proofs.Cancellation
import TaskMill.Proofs.FailFast
/-!
# TaskMill — exit codes

An exit code is what is left of a failure on four ways: a process ends, its end
becomes what its turn comes to, this becomes the fault of the run, and the fault
becomes the failure that a command exits with. On none of them does a failure
become a success.

There are three ways for a command to fail. It is not told where to look for a task
file (`Workspace.LacksDirectory`), it finds none there (`Workspace.LacksFile`), or it
**meets** a fault (`Workspace.Meets`): while it makes a new task file, loads one, looks
for its target, plans, or runs. Only a run can meet a fault of a process
(`Meets.exists_run`).

## Results

* `Turn.not_isInterrupt_of_taskFailed` — a failed task was not interrupted.
* `Workspace.cases_of_execute` — what a command fails of.
* `Workspace.run_succeeds_iff` — when a run succeeds.
* `exitCode_tells` — what an exit code tells.
-/

namespace TaskMill

variable {σ : Type} {h : Host σ} {r : Registry} {o : RunOptions}

-- ---------------------------------------------------------------------------
-- Processes
-- ---------------------------------------------------------------------------

/-- The exit code that tells how a process ended badly: its own, which is not
zero, or one if a signal ended it that is no interruption from the keyboard. -/
inductive ExitStatus.ToldBy : ExitStatus → Int → Prop
  | exited (code : UInt8) (hCode : code ≠ 0) : (exited code).ToldBy code.toNat
  | killed (signal : Nat) (hSignal : signal ≠ 2) : (killed signal).ToldBy 1

theorem ExitStatus.isSuccess_iff {status : ExitStatus} :
    status.isSuccess = true ↔ status = .exited 0 := by
  cases status <;> simp [isSuccess]

theorem ExitStatus.toldBy_ofStatus {status : ExitStatus} (hFailed : status.isSuccess = false)
    (hOther : status.isInterrupt = false) : status.ToldBy (ExitCode.ofStatus status.code?) := by
  cases status with
  | killed signal => exact .killed signal (of_decide_eq_false hOther)
  | exited code =>
    have hCode : code ≠ 0 := of_decide_eq_false hFailed
    have hNat : (code.toNat : Int) ≠ 0 := by
      intro hZero
      exact hCode (UInt8.toNat_inj.mp (Int.ofNat_eq_zero.mp hZero))
    have hOwn : ExitCode.ofStatus (ExitStatus.exited code).code? = code.toNat := if_neg hNat
    rw [hOwn]
    exact .exited code hCode

theorem ExitStatus.ToldBy.mem_range {status : ExitStatus} {code : Int}
    (hTold : status.ToldBy code) : 1 ≤ code ∧ code ≤ 255 := by
  cases hTold with
  | killed => decide
  | exited byte hByte =>
    have hLess := byte.toNat_lt
    have hPos : byte.toNat ≠ 0 := fun hZero => hByte (UInt8.toNat_inj.mp hZero)
    omega

section Performing

variable {task : Task} {action : Action} {s : σ}

/-- What has finished was no process that an interruption ended. -/
theorem performAction_finished {finished : Finished}
    (hResult : (h.performAction o task action s).result = .ok finished) :
    h.exit? s (o.launch task action) = some finished.status ∧
      finished.status.isInterrupt = false := by
  cases hPerform : h.perform s (o.launch task action) with
  | mk answer t =>
    cases answer with
    | error error =>
      rw [performAction_of_error hPerform] at hResult
      cases hResult
    | ok p =>
      have hExit : h.exit? s (o.launch task action) = p.ending.status? := by
        rw [Host.exit?, hPerform]
        rfl
      simp only [Host.performAction, hPerform] at hResult
      cases hEnding : p.ending with
      | overran limited => simp [hEnding] at hResult
      | lost error => simp [hEnding] at hResult
      | cancelled => simp [hEnding] at hResult
      | byItself status =>
        rw [hEnding] at hExit
        simp only [hEnding] at hResult
        cases hTest : !status.isSuccess && (h.cancelled t || status.isInterrupt) with
        | true => simp [hTest] at hResult
        | false =>
          simp only [hTest, Bool.false_eq_true, if_false] at hResult
          obtain rfl := Except.ok.inj hResult
          refine ⟨hExit, ?_⟩
          -- an interrupted process has no success, so the test would have found it
          cases status with
          | exited code => rfl
          | killed signal => simpa [ExitStatus.isSuccess] using (Bool.or_eq_false_iff.mp hTest).2

/-- Performing an action never tells a failed task by itself. -/
theorem performAction_ne_taskFailed {name : String} {code : Option Int} {output : Option String} :
    (h.performAction o task action s).result ≠ .error (.taskFailed name code output) := by
  intro hResult
  cases hPerform : h.perform s (o.launch task action) with
  | mk answer t =>
    cases answer with
    | error error =>
      rw [performAction_of_error hPerform] at hResult
      cases hResult
    | ok p =>
      have hSpec := (performAction_of_ok hPerform).2
      rw [hResult] at hSpec
      cases hStatus : p.ending.status? with
      | none =>
        rw [hStatus] at hSpec
        obtain ⟨fault, hFault, hOther⟩ := hSpec
        exact hOther name code output (Except.error.inj hFault).symm
      | some status => simp [hStatus] at hSpec

end Performing

/-- A failed task that is told is one whose process has finished, and all that is
told of it is told by what has finished. -/
theorem Turn.exists_finished {t : Turn h r o} {name : String} {code : Option Int}
    {output : Option String} (hFault : t.fault? = some (.taskFailed name code output)) :
    ∃ action finished, t.task.action = some action ∧
      (h.performAction o t.task action t.ready).result = .ok finished ∧
      t.exit? = some finished.status ∧ finished.status.isSuccess = false ∧
      name = t.name ∧ code = finished.status.code? ∧ output = finished.snippet := by
  obtain ⟨hResult, -⟩ := t.cause_of_fault? hFault rfl
  obtain ⟨-, status, hExit, -⟩ := Turn.exit?_of_taskFailed hFault
  obtain ⟨launch, hLaunch, -⟩ := Option.bind_eq_some_iff.mp hExit
  obtain ⟨action, hAction, rfl, -, -, -, hComesTo⟩ := t.attempt_of_launch hLaunch
  rw [hComesTo] at hResult
  cases hPerformed : (h.performAction o t.task action t.ready).result with
  | error fault =>
    rw [hPerformed] at hResult
    obtain rfl := Except.error.inj hResult
    exact absurd hPerformed performAction_ne_taskFailed
  | ok finished =>
    have hEnd : t.exit? = some finished.status := by
      rw [Turn.exit?, hLaunch]
      exact (performAction_finished hPerformed).1
    rw [hPerformed] at hResult
    replace hResult : (if finished.status.isSuccess then .ok (Outcome.executed t.name finished)
        else .error (.taskFailed t.name finished.status.code? finished.snippet)) =
          Except.error (Fault.taskFailed name code output) := hResult
    cases hSuccess : finished.status.isSuccess with
    | true => simp [hSuccess] at hResult
    | false =>
      simp only [hSuccess, Bool.false_eq_true, if_false, Except.error.injEq,
        Fault.taskFailed.injEq] at hResult
      obtain ⟨rfl, rfl, rfl⟩ := hResult
      exact ⟨action, finished, hAction, hPerformed, hEnd, hSuccess, rfl, rfl, rfl⟩

/-- **A failed task that is told** is no task whose process an interruption
ended. -/
theorem Turn.not_isInterrupt_of_taskFailed {t : Turn h r o} {name : String} {code : Option Int}
    {output : Option String} (hFault : t.fault? = some (.taskFailed name code output))
    {status : ExitStatus} (hExit : t.exit? = some status) : status.isInterrupt = false := by
  obtain ⟨action, finished, -, hPerformed, hEnd, -⟩ := Turn.exists_finished hFault
  obtain rfl := Option.some.inj (hEnd.symm.trans hExit)
  exact (performAction_finished hPerformed).2

/-- A run that fails of a process has a plan, and comes to the turn that fails. -/
theorem exists_turn_of_isOfProcess {target : String} {s : σ} {fault : Fault}
    (hProcess : fault.isOfProcess = true) (hRun : (h.run r o target s).result = .error fault) :
    ∃ (plan : List Task) (p : Point h r o) (t : Turn h r o), r.plan target = .ok plan ∧
      p.Reached plan s ∧ p.turn? = some t ∧ t.fault? = some fault := by
  cases hPlan : r.plan target with
  | error planning =>
    rw [(run_of_fault hPlan s).1] at hRun
    obtain rfl := Except.error.inj hRun
    rw [r.noProcess_plan target _ hPlan] at hProcess
    cases hProcess
  | ok plan =>
    obtain ⟨p, t, hReached, hTurn, hFault, -⟩ := exists_turn_of_error hPlan hRun
    exact ⟨plan, p, t, rfl, hReached, hTurn, hFault⟩

-- ---------------------------------------------------------------------------
-- Commands that fail
-- ---------------------------------------------------------------------------

namespace Workspace

variable {w : Workspace σ} {c : CommandLine} {s : σ}

/-- A command line needs a task file and gives none, and the operating system refuses to
tell the directory in which to look for one. -/
def LacksDirectory (w : Workspace σ) (c : CommandLine) (s : σ) : Prop :=
  c.mode ≠ some .init ∧ c.file = none ∧ ∃ error, w.workingDirectory s = .error error

/-- A command line needs a task file and gives none, and there is none to be found. -/
def LacksFile (w : Workspace σ) (c : CommandLine) (s : σ) : Prop :=
  c.mode ≠ some .init ∧ c.file = none ∧ ∃ directory, w.workingDirectory s = .ok directory ∧
    discover (w.isFile s) directory = none

/-- A command line that needs a task file has a project. -/
def Finds (w : Workspace σ) (c : CommandLine) (s : σ) (p : Project) : Prop :=
  c.mode ≠ some .init ∧ ∃ path, w.locate c.file s = .ok path ∧ w.load path s = .ok p

/-- What a command line fails of on a project. -/
inductive MeetsOn (w : Workspace σ) (c : CommandLine) (p : Project) (s : σ) : Fault → Prop
  | target {fault : Fault} (hMode : c.mode = none ∨ c.mode = some .dryRun)
      (hTarget : p.target c.task = .error fault) : w.MeetsOn c p s fault
  | plan {target : String} {fault : Fault} (hMode : c.mode = some .dryRun)
      (hTarget : p.target c.task = .ok target) (hPlan : p.registry.plan target = .error fault) :
      w.MeetsOn c p s fault
  | run {target : String} {fault : Fault} (hMode : c.mode = none)
      (hTarget : p.target c.task = .ok target)
      (hRun : (w.run p.registry (c.runOptions p) target s).result = .error fault) :
      w.MeetsOn c p s fault

/-- What a command line fails of, if it has a task file or makes one. -/
inductive Meets (w : Workspace σ) (c : CommandLine) (s : σ) : Fault → Prop
  | create {fault : Fault} (hMode : c.mode = some .init)
      (hMade : (w.writeStarter (c.file.getD ⟨TaskFile.defaultName⟩) s).1 = .error fault) :
      w.Meets c s fault
  | load {path : Path} {fault : Fault} (hMode : c.mode ≠ some .init)
      (hPath : w.locate c.file s = .ok path) (hLoad : w.load path s = .error fault) :
      w.Meets c s fault
  | project {p : Project} {fault : Fault} (hFinds : w.Finds c s p)
      (hMeets : w.MeetsOn c p s fault) : w.Meets c s fault

theorem execute_of_finds {p : Project} (hFinds : w.Finds c s p) :
    w.execute c s = w.executeOn c p s := by
  obtain ⟨hMode, path, hPath, hLoad⟩ := hFinds
  simp only [w.execute_of_not_init s hMode, hPath, hLoad]

theorem executeOn_eq_error_iff {p : Project} (hInit : c.mode ≠ some .init) {failure : Failure} :
    (w.executeOn c p s).result = .error failure ↔
      ∃ fault, w.MeetsOn c p s fault ∧ .ofFault fault = failure := by
  rw [w.executeOn_eq hInit]
  constructor
  · intro hFails
    cases hMode : c.mode with
    | none =>
      simp only [hMode] at hFails
      cases hTarget : p.target c.task with
      | error fault =>
        simp only [hTarget] at hFails
        exact ⟨fault, .target (.inl hMode) hTarget, Except.error.inj hFails⟩
      | ok target =>
        simp only [hTarget, reduceCtorEq, if_false] at hFails
        obtain ⟨fault, hRun, hSame⟩ := mapError_eq_error_iff.mp hFails
        exact ⟨fault, .run hMode hTarget (map_eq_error_iff.mp hRun), hSame⟩
    | some mode =>
      cases mode with
      | list => simp [hMode, Response.still, Except.mapError] at hFails
      | check => simp [hMode, Response.still, Except.mapError] at hFails
      | init => exact absurd hMode hInit
      | dryRun =>
        simp only [hMode] at hFails
        cases hTarget : p.target c.task with
        | error fault =>
          simp only [hTarget] at hFails
          exact ⟨fault, .target (.inr hMode) hTarget, Except.error.inj hFails⟩
        | ok target =>
          simp only [hTarget, if_true] at hFails
          obtain ⟨fault, hPlan, hSame⟩ := mapError_eq_error_iff.mp hFails
          exact ⟨fault, .plan hMode hTarget (map_eq_error_iff.mp hPlan), hSame⟩
  · rintro ⟨fault, hMeets, rfl⟩
    cases hMeets with
    | target hMode hTarget =>
      rcases hMode with hMode | hMode <;> simp [hMode, hTarget, Response.still, Except.mapError]
    | plan hMode hTarget hPlan =>
      simp [hMode, hTarget, hPlan, Response.still, Except.mapError, Except.map]
    | run hMode hTarget hRun => simp [hMode, hTarget, hRun, Except.mapError, Except.map]

/-- Without a task file there is no directory to look for one in, or none is in it. -/
theorem lacks_of_locate {failure : Failure} (hMode : c.mode ≠ some .init)
    (hPath : w.locate c.file s = .error failure) : w.LacksDirectory c s ∨ w.LacksFile c s := by
  unfold locate at hPath
  cases hFile : c.file with
  | some path => simp [hFile] at hPath
  | none =>
    cases hDirectory : w.workingDirectory s with
    | error error =>
      exact .inl ⟨hMode, hFile, error, hDirectory⟩
    | ok directory =>
      cases hFound : discover (w.isFile s) directory with
      | some path => simp [hFile, hDirectory, hFound] at hPath
      | none => exact .inr ⟨hMode, hFile, directory, hDirectory, hFound⟩

theorem LacksDirectory.execute_eq_error (hLacks : w.LacksDirectory c s) :
    ∃ error, (w.execute c s).result = .error (noDirectory error) := by
  obtain ⟨hMode, hFile, error, hDirectory⟩ := hLacks
  refine ⟨error, ?_⟩
  simp only [w.execute_of_not_init s hMode, locate, hFile, hDirectory]

theorem LacksFile.execute_eq_error (hLacks : w.LacksFile c s) :
    ∃ directory, (w.execute c s).result = .error (noTaskFile directory) := by
  obtain ⟨hMode, hFile, directory, hDirectory, hFound⟩ := hLacks
  refine ⟨directory, ?_⟩
  simp only [w.execute_of_not_init s hMode, locate, hFile, hDirectory, hFound]

theorem Meets.execute_eq_error {fault : Fault} (hMeets : w.Meets c s fault) :
    (w.execute c s).result = .error (.ofFault fault) := by
  cases hMeets with
  | create hMode hMade =>
    rw [w.execute_of_init s hMode]
    exact mapError_eq_error_iff.mpr ⟨fault, map_eq_error_iff.mpr hMade, rfl⟩
  | load hMode hPath hLoad =>
    simp only [w.execute_of_not_init s hMode, hPath, hLoad]
    rfl
  | project hFinds hMeets =>
    rw [execute_of_finds hFinds]
    exact (executeOn_eq_error_iff hFinds.1).mpr ⟨fault, hMeets, rfl⟩

/-- **What a command fails of**: it is not told where to look for a task file, there is
none, or it meets a fault. -/
theorem cases_of_execute {failure : Failure} (hFails : (w.execute c s).result = .error failure) :
    w.LacksDirectory c s ∨ w.LacksFile c s ∨ ∃ fault, w.Meets c s fault := by
  by_cases hMode : c.mode = some .init
  · rw [w.execute_of_init s hMode] at hFails
    obtain ⟨fault, hMade, -⟩ := mapError_eq_error_iff.mp hFails
    exact .inr (.inr ⟨fault, .create hMode (map_eq_error_iff.mp hMade)⟩)
  · rw [w.execute_of_not_init s hMode] at hFails
    cases hPath : w.locate c.file s with
    | error lacking =>
      rcases lacks_of_locate hMode hPath with hDirectory | hFile
      · exact .inl hDirectory
      · exact .inr (.inl hFile)
    | ok path =>
      cases hLoad : w.load path s with
      | error fault => exact .inr (.inr ⟨fault, .load hMode hPath hLoad⟩)
      | ok p =>
        simp only [hPath, hLoad] at hFails
        obtain ⟨fault, hMeets, -⟩ := (executeOn_eq_error_iff hMode).mp hFails
        exact .inr (.inr ⟨fault, .project ⟨hMode, path, hPath, hLoad⟩ hMeets⟩)

/-- Only a run meets a fault of a process. -/
theorem Meets.exists_run {fault : Fault} (hMeets : w.Meets c s fault)
    (hProcess : fault.isOfProcess = true) :
    ∃ p target, w.Finds c s p ∧ c.mode = none ∧ p.target c.task = .ok target ∧
      (w.run p.registry (c.runOptions p) target s).result = .error fault := by
  have hOther : ∀ {α : Type} {x : Except Fault α}, NoProcess x → x ≠ .error fault := by
    rintro α x hNone hFault
    rw [hNone fault hFault] at hProcess
    cases hProcess
  cases hMeets with
  | create hMode hMade => exact absurd hMade (hOther (w.noProcess_writeStarter _ s))
  | load hMode hPath hLoad => exact absurd hLoad (hOther (Project.noProcess_load _ _))
  | @project p _ hFinds hMeetsOn =>
    cases hMeetsOn with
    | target hMode hTarget => exact absurd hTarget (hOther (p.noProcess_target _))
    | plan hMode hTarget hPlan => exact absurd hPlan (hOther (p.registry.noProcess_plan _))
    | @run target _ hMode hTarget hRun => exact ⟨p, target, hFinds, hMode, hTarget, hRun⟩

/-- The run of a command line stops at the task `name`, whose process ended with
`status`. -/
def FailsAt (w : Workspace σ) (c : CommandLine) (s : σ) (name : String) (status : ExitStatus) :
    Prop :=
  ∃ p target plan, w.Finds c s p ∧ c.mode = none ∧ p.target c.task = .ok target ∧
    p.registry.plan target = .ok plan ∧
    ∃ (q : Point w.toHost p.registry (c.runOptions p)) (t : Turn w.toHost _ _),
      q.Reached plan s ∧ q.turn? = some t ∧ q.IsLast ∧ t.name = name ∧ t.exit? = some status

/-- A failed task that a command fails of is one of its run, and the exit code
for it tells how its process ended. -/
theorem Meets.exists_failsAt {name : String} {code : Option Int} {output : Option String}
    (hMeets : w.Meets c s (.taskFailed name code output)) :
    ∃ status, w.FailsAt c s name status ∧ status.ToldBy (ExitCode.ofStatus code) := by
  obtain ⟨p, target, hFinds, hMode, hTarget, hRun⟩ := hMeets.exists_run rfl
  obtain ⟨plan, q, t, hPlan, hReached, hTurn, hFault⟩ := exists_turn_of_isOfProcess rfl hRun
  obtain ⟨rfl, status, hExit, hFailed, rfl⟩ := Turn.exit?_of_taskFailed hFault
  have hLast : q.IsLast := by
    refine .inr ?_
    rw [Point.fault?_of_turn? hTurn, hFault]
    rfl
  refine ⟨status, ⟨p, target, plan, hFinds, hMode, hTarget, hPlan, q, t, hReached, hTurn, hLast,
    rfl, hExit⟩, ?_⟩
  exact ExitStatus.toldBy_ofStatus hFailed (Turn.not_isInterrupt_of_taskFailed hFault hExit)

/-- What an exit code tells of a fault that was not overtaken by a
cancellation. -/
def Tells (w : Workspace σ) (c : CommandLine) (s : σ) (code : Int) : Fault → Prop
  | .taskFailed name _ _ => ∃ status, w.FailsAt c s name status ∧ status.ToldBy code
  | .taskTimedOut _ _ => code = 124
  | .cancelled _ => code = 130
  | .io _ _ _ => code = 3
  | .duplicateTask _ | .unknownTask _ _ | .cyclicDependency _ | .noTask | .configuration _ _ =>
    code = 2

theorem Tells.mem_range {code : Int} {fault : Fault} (hTells : w.Tells c s code fault) :
    1 ≤ code ∧ code ≤ 255 := by
  cases fault with
  | taskFailed name status output =>
    obtain ⟨ended, -, hTold⟩ := hTells
    exact hTold.mem_range
  | _ =>
    obtain rfl : code = _ := hTells
    decide

theorem Meets.tells {fault : Fault} (hMeets : w.Meets c s fault) :
    w.Tells c s (Failure.ofFault fault).exitCode fault := by
  cases fault with
  | taskFailed name code output => exact hMeets.exists_failsAt
  | _ => rfl

-- ---------------------------------------------------------------------------
-- Exit codes
-- ---------------------------------------------------------------------------

theorem main_of_parse {arguments : List String} (hParse : CommandLine.parse arguments = .ok c) :
    w.main arguments s = w.respond c s := by
  simp only [main, hParse]

theorem exitCode_of_ok {answer : Answer} (hOk : (w.execute c s).result = .ok answer) :
    (w.respond c s).exitCode = 0 := by
  simp only [respond, hOk]
  rfl

/-- A failure keeps its exit code unless a cancellation has arrived. -/
theorem exitCode_of_error {failure : Failure} (hFails : (w.execute c s).result = .error failure) :
    (w.respond c s).exitCode =
      if w.cancelled (w.respond c s).world then 130 else failure.exitCode := by
  have hCode : (w.respond c s).exitCode =
      (failure.orCancelled (w.cancelled (w.respond c s).world)).exitCode := by
    simp only [respond, hFails]
    rfl
  rw [hCode]
  cases w.cancelled (w.respond c s).world <;> cases failure <;> rfl

theorem exitCode_of_lacksDirectory (hLacks : w.LacksDirectory c s) :
    (w.respond c s).exitCode = if w.cancelled (w.respond c s).world then 130 else 3 := by
  obtain ⟨error, hFails⟩ := hLacks.execute_eq_error
  exact exitCode_of_error hFails

theorem exitCode_of_lacksFile (hLacks : w.LacksFile c s) :
    (w.respond c s).exitCode = if w.cancelled (w.respond c s).world then 130 else 2 := by
  obtain ⟨directory, hFails⟩ := hLacks.execute_eq_error
  exact exitCode_of_error hFails

theorem exitCode_of_meets {fault : Fault} (hMeets : w.Meets c s fault) :
    if w.cancelled (w.respond c s).world then (w.respond c s).exitCode = 130
    else w.Tells c s (w.respond c s).exitCode fault := by
  rw [exitCode_of_error hMeets.execute_eq_error]
  cases w.cancelled (w.respond c s).world with
  | true => rfl
  | false => exact hMeets.tells

/-- **No failure exits like a success.** -/
theorem exitCode_mem_range {failure : Failure}
    (hFails : (w.execute c s).result = .error failure) :
    1 ≤ (w.respond c s).exitCode ∧ (w.respond c s).exitCode ≤ 255 := by
  rcases cases_of_execute hFails with hDirectory | hFile | ⟨fault, hMeets⟩
  · rw [exitCode_of_lacksDirectory hDirectory]
    split <;> decide
  · rw [exitCode_of_lacksFile hFile]
    split <;> decide
  · have hCode := exitCode_of_meets hMeets
    split at hCode
    · rw [hCode]
      decide
    · exact hCode.mem_range

theorem exitCode_eq_zero_iff :
    (w.respond c s).exitCode = 0 ↔ ∃ answer, (w.execute c s).result = .ok answer := by
  constructor
  · intro hZero
    cases hResult : (w.execute c s).result with
    | ok answer => exact ⟨answer, rfl⟩
    | error failure =>
      have hRange := exitCode_mem_range hResult
      omega
  · rintro ⟨answer, hOk⟩
    exact exitCode_of_ok hOk

/-- A run succeeds if every task of its plan has ended well. -/
theorem run_succeeds_iff {p : Project} {target : String} (hFinds : w.Finds c s p)
    (hMode : c.mode = none) (hTarget : p.target c.task = .ok target) :
    (∃ answer, (w.execute c s).result = .ok answer) ↔
      ∃ plan, p.registry.plan target = .ok plan ∧
        ∃ q : Point w.toHost p.registry (c.runOptions p), q.Reached plan s ∧
          q.done.map Turn.task = plan ∧ ∀ t ∈ q.done, t.EndedWell ∧
            ∀ status, t.exit? = some status → status = .exited 0 := by
  have hResult : (∃ answer, (w.execute c s).result = .ok answer) ↔
      ∃ report, (w.run p.registry (c.runOptions p) target s).result = .ok report := by
    rw [execute_of_finds hFinds]
    rw [w.executeOn_eq hFinds.1]
    simp only [hMode, hTarget, reduceCtorEq, if_false]
    cases (w.run p.registry (c.runOptions p) target s).result <;> simp [Except.map, Except.mapError]
  rw [hResult]
  constructor
  · rintro ⟨report, hRun⟩
    cases hPlan : p.registry.plan target with
    | error fault =>
      rw [(run_of_fault hPlan s).1] at hRun
      cases hRun
    | ok plan =>
      obtain ⟨q, hReached, hRest, -⟩ := exists_point_of_ok hPlan hRun
      have hSplit := hReached.plan_eq
      rw [hRest, List.append_nil] at hSplit
      refine ⟨plan, rfl, q, hReached, hSplit, fun t ht => ?_⟩
      have hEnded := Turn.endedWell_iff.mpr (hReached.ended t ht)
      refine ⟨hEnded, fun status hExit => ?_⟩
      exact ExitStatus.isSuccess_iff.mp (Turn.isSuccess_of_endedWell hEnded hExit)
  · rintro ⟨plan, hPlan, q, hReached, hAll, -⟩
    have hRest : q.rest = [] := by
      have hSplit := hReached.plan_eq
      rw [hAll] at hSplit
      simpa using hSplit
    have hFault : q.fault? = none := by
      rw [Point.fault?, Point.turn?, hRest]
      rfl
    obtain ⟨-, -, -, hRun, -⟩ := run_of_last hPlan hReached (.inl hRest)
    rw [hRun, hFault]
    exact ⟨_, rfl⟩

end Workspace

/--
**What an exit code tells.** On every workspace, and for all arguments that make
up a command line:

* the exit code is zero exactly if the command comes to an answer; for a run that
  is the case exactly if it has a plan and each of its tasks has ended as executed
  with the status zero, as skipped or as an aggregate;
* a command fails exactly if it is not told where to look for a task file, lacks one,
  or meets a fault, and then its exit code is at least 1 and at most 255;
* it is 130 if a cancellation has arrived by the end, whatever failed; and else it
  tells what failed: for a failed task, how the process that the run stopped at has
  ended; 124 for a timeout; 130 for a cancellation; 3 for the operating system, also
  where it does not tell the working directory; and 2 for all that is wrong with the
  command line or the task file, also where there is no task file.
-/
theorem exitCode_tells (w : Workspace σ) {arguments : List String} {c : CommandLine}
    (hParse : CommandLine.parse arguments = .ok c) (s : σ) :
    ((w.main arguments s).exitCode = 0 ↔ ∃ answer, (w.execute c s).result = .ok answer) ∧
    (∀ p target, w.Finds c s p → c.mode = none → p.target c.task = .ok target →
      ((w.main arguments s).exitCode = 0 ↔ ∃ plan, p.registry.plan target = .ok plan ∧
        ∃ q : Point w.toHost p.registry (c.runOptions p), q.Reached plan s ∧
          q.done.map Turn.task = plan ∧ ∀ t ∈ q.done, t.EndedWell ∧
            ∀ status, t.exit? = some status → status = .exited 0)) ∧
    ((∃ failure, (w.execute c s).result = .error failure) ↔
      w.LacksDirectory c s ∨ w.LacksFile c s ∨ ∃ fault, w.Meets c s fault) ∧
    (∀ failure, (w.execute c s).result = .error failure →
      1 ≤ (w.main arguments s).exitCode ∧ (w.main arguments s).exitCode ≤ 255) ∧
    (w.LacksDirectory c s → (w.main arguments s).exitCode =
      if w.cancelled (w.main arguments s).world then 130 else 3) ∧
    (w.LacksFile c s → (w.main arguments s).exitCode =
      if w.cancelled (w.main arguments s).world then 130 else 2) ∧
    ∀ fault, w.Meets c s fault →
      if w.cancelled (w.main arguments s).world then (w.main arguments s).exitCode = 130
      else w.Tells c s (w.main arguments s).exitCode fault := by
  rw [Workspace.main_of_parse hParse]
  refine ⟨Workspace.exitCode_eq_zero_iff, ?_, ⟨?_, ?_⟩, fun failure hFails =>
    Workspace.exitCode_mem_range hFails, Workspace.exitCode_of_lacksDirectory,
    Workspace.exitCode_of_lacksFile, fun fault => Workspace.exitCode_of_meets⟩
  · intro p target hFinds hMode hTarget
    exact Workspace.exitCode_eq_zero_iff.trans (Workspace.run_succeeds_iff hFinds hMode hTarget)
  · rintro ⟨failure, hFails⟩
    exact Workspace.cases_of_execute hFails
  · rintro (hDirectory | hFile | ⟨fault, hMeets⟩)
    · exact hDirectory.execute_eq_error.imp' _ fun error hFails => hFails
    · exact hFile.execute_eq_error.imp' _ fun directory hFails => hFails
    · exact ⟨_, hMeets.execute_eq_error⟩

-- ---------------------------------------------------------------------------
-- A process that fails
-- ---------------------------------------------------------------------------

namespace Lone

/-- A task file with one task, given as the array of its values. -/
def text : String := "task=[['lone','',false,'out',[],'act']]"

def task : Task :=
  ⟨"lone", .artifact ⟨"out"⟩, [], some ⟨"act", []⟩, some "", none, none⟩

def project : Project where
  path := ⟨"f"⟩
  root := Project.rootOf ⟨"f"⟩
  settings := .none
  registry := .ofDistinct [task] (by simp)

/-- A place with this task file, where every process says a word and exits with
the status seven. -/
def workspace : Workspace Unit where
  elapse := id
  cancelled _ := false
  now _ := 0
  modified _ _ := .error .notFound
  perform _ _ := (.ok ⟨.byItself (.exited 7), Text.encode "oh", [], fun _ => 0⟩, ())
  workingDirectory _ := .ok ⟨"/"⟩
  readText _ _ := .ok text
  isFile _ _ := true
  createNew _ _ := (.error .alreadyExists, ())
  fillNew _ _ _ := (.error .noSpace, ())
  heard _ := 0
  stamp _ n := (⟨BitVec.ofNat 128 n⟩, default)

def arguments : List String := ["--json", "--file", "f", "lone"]

def commandLine : CommandLine :=
  { CommandLine.plain with task := some "lone", file := some ⟨"f"⟩, json := true }

theorem parse_arguments : CommandLine.parse arguments = .ok commandLine := rfl

theorem parse_text (file : Path) : TaskFile.parse text file =
    .ok ⟨.none, [⟨"lone", some "", some false, some ⟨"out"⟩, [], some "act", [], none, none⟩]⟩ := by
  let entries : Toml.Entries := [("task", .closed (.array [.array
    [.string "lone", .string "", .boolean false, .string "out", .array [], .string "act"]]))]
  have hRead : (Toml.wellFormed (Toml.statements? text.toList) >>= fun statements =>
      statements.foldlM Toml.Statement.read .start) = .ok ⟨entries, [], false⟩ := by cbv
  have hToml : Toml.parse text = .ok (.table (Toml.closeEntries entries)) := by
    have hFirst : text.toList.head? = some 't' := by cbv
    have hMark : ¬ some 't' = some '\uFEFF' := by decide
    simp only [Toml.parse, hFirst, hMark, if_false, ← bind_assoc, hRead]
    rfl
  simp only [TaskFile.parse, hToml, TaskFile.ofTomlAt, Except.mapError, bind, Except.bind]
  simp only [entries, Toml.closeEntries, Toml.Draft.close]
  cbv

theorem load_text : Project.load (fun _ => .ok text) ⟨"f"⟩ = .ok project := by
  simp only [Project.load, Except.mapError, bind, Except.bind, parse_text]
  cbv

theorem finds_project : workspace.Finds commandLine () project :=
  ⟨by decide, ⟨"f"⟩, rfl, load_text⟩

theorem plan_lone : project.registry.plan "lone" = .ok [task] := by cbv

/-- The run stops at the process, and tells what was captured from it. -/
theorem run_fails :
    (workspace.run project.registry (commandLine.runOptions project) "lone" ()).result =
      .error (.taskFailed "lone" (some 7) (some "stdout:\noh")) := by
  let t : Turn workspace.toHost project.registry (commandLine.runOptions project) := ⟨task, [], ()⟩
  have hCheck : t.view.check t.task = .ok .missing := by cbv
  obtain ⟨-, -, -, -, hResult⟩ := t.attempt_of_action rfl hCheck (by simp) rfl
  have hPerformed : (workspace.performAction (commandLine.runOptions project) t.task ⟨"act", []⟩
      t.ready).result = .ok ⟨.exited 7, ["oh"], []⟩ := by cbv
  have hSnippet : Finished.snippet ⟨.exited 7, ["oh"], []⟩ = some "stdout:\noh" := by decide +kernel
  refine run_of_head plan_lone (?_ : t.fault? = _)
  rw [Turn.fault?, hResult, hPerformed, ← hSnippet]
  rfl

/-- What the process came to is met by the command. -/
theorem meets_taskFailed :
    ∃ output, workspace.Meets commandLine () (.taskFailed "lone" (some 7) output) :=
  ⟨_, .project finds_project (.run rfl rfl run_fails)⟩

/-- The process that failed is told by the exit code. -/
theorem exitCode_tells_lone : CommandLine.parse arguments = .ok commandLine ∧
    ∃ status, workspace.FailsAt commandLine () "lone" status ∧
      status.ToldBy (workspace.main arguments ()).exitCode := by
  obtain ⟨-, -, -, -, -, -, hTells⟩ := exitCode_tells workspace parse_arguments ()
  obtain ⟨output, hMeets⟩ := meets_taskFailed
  exact ⟨parse_arguments, hTells _ hMeets⟩

end Lone

end TaskMill
