import TaskMill.Proofs.Arguments
import TaskMill.Proofs.ExitCode
import TaskMill.Proofs.Registration
import TaskMill.Proofs.Trace
/-!
# TaskMill — limits

How long a task may take is said in whole seconds, in three places: its entry, the
command line, and the settings of the task file. The first of them that says
anything counts (`CommandLine.limitFor`). None of them can say zero seconds, but
each is kept from it elsewhere: the entry and the settings when the file is loaded,
the command line when its arguments are read.

A limit is kept in milliseconds and told in seconds, as an event and as a fault. A
turn tells of a limit exactly if it comes to a fault that does, and both tell the
limit of the task (`Timed`). As a run stops at the first turn that does not end well,
it tells one limit at most.

## Results

* `Project.declared_of_load` — what is known of the file of a project.
* `Turn.timed`               — what a turn tells of limits.
* `overruns_of_run`          — what a run tells of limits.
* `limits_hold`              — the limits of all tasks, where they come from and what
  is told of them.
-/

namespace TaskMill

variable {σ : Type} {h : Host σ} {r : Registry} {o : RunOptions}

-- ---------------------------------------------------------------------------
-- What is told of limits
-- ---------------------------------------------------------------------------

/-- The task that an event tells to have exceeded its limit, and the seconds of the
limit. -/
def Event.overrun? : Event → Option (String × UInt64)
  | .task (.timedOut name seconds) => some (name, seconds)
  | _ => none

/-- All that events tell of limits. -/
def overruns (events : List Event) : List (String × UInt64) := events.filterMap Event.overrun?

theorem overruns_append (first next : List Event) :
    overruns (first ++ next) = overruns first ++ overruns next :=
  List.filterMap_append

/-- What is told while a task is handled that has a limit in milliseconds, and what
that comes to, agree on limits: neither tells one, or both tell that of the task. -/
inductive Timed {α : Type} (limit? : Option Nat) (name : String) :
    Except Fault α → List Event → Prop
  | inTime {result : Except Fault α} {told : List Event} (hTold : overruns told = [])
      (hResult : ∀ name seconds, result ≠ .error (.taskTimedOut name seconds)) :
      Timed limit? name result told
  | overran {limit : Nat} {told : List Event} (hLimit : limit? = some limit)
      (hTold : overruns told = [(name, clamp64 (limit / 1000))]) :
      Timed limit? name (.error (.taskTimedOut name (limit / 1000))) told

theorem overruns_begun {task : Task} {action : Action} {outputs : List Event}
    (hOutputs : ∀ e ∈ outputs, e.IsOutput task.name) (ending : List Event) :
    overruns (task.started action :: outputs ++ ending) = overruns ending := by
  have hNone : overruns outputs = [] := filterMap_outputs (fun _ _ _ => rfl) hOutputs
  rw [overruns_append]
  show overruns outputs ++ _ = _
  rw [hNone, List.nil_append]

/-- **Only a process that overran** is told to have, with its limit. -/
theorem timed_performAction (h : Host σ) (o : RunOptions) (task : Task) (action : Action) (s : σ) :
    Timed (o.limitOf task) task.name (h.performAction o task action s).result
      ((h.performAction o task action s).emissions.filterMap Emission.event?) := by
  cases hPerform : h.perform s (o.launch task action) with
  | mk answer t =>
    cases answer with
    | error error =>
      rw [performAction_of_error hPerform]
      exact .inTime rfl (by simp)
    | ok p =>
      have hOutputs := isOutput_of_mem_toldInTime o task.name p
      have hBegun : overruns ((Emission.event (task.started action) ::
          o.toldInTime task.name p).filterMap Emission.event?) = [] := by
        rw [← List.append_nil (_ :: _), filterMap_begun, overruns_begun hOutputs]
        rfl
      simp only [Host.performAction, hPerform]
      cases p.ending with
      | overran limited =>
        refine .overran (Option.some_get limited).symm ?_
        rw [filterMap_begun]
        exact overruns_begun hOutputs _
      | cancelled => exact .inTime hBegun (by simp)
      | lost error late => exact .inTime hBegun (by simp)
      | byItself status =>
        dsimp only
        split
        case isTrue => exact .inTime hBegun (by simp)
        case isFalse =>
          refine .inTime ?_ (by simp)
          rw [filterMap_begun]
          exact overruns_begun (isOutput_of_mem_toldAll o task.name p) _

-- ---------------------------------------------------------------------------
-- Turns
-- ---------------------------------------------------------------------------

theorem Turn.timed_of_launch {t : Turn h r o} {launch : Launch}
    (hLaunch : t.launch? = some launch) :
    Timed (o.limitOf t.task) t.name t.attempt.result t.told := by
  obtain ⟨action, -, -, -, hEmissions, -, hResult⟩ := t.attempt_of_launch hLaunch
  have hTimed := timed_performAction h o t.task action t.ready
  rw [hResult, told, hEmissions]
  cases hPerformed : (h.performAction o t.task action t.ready).result with
  | error fault =>
    rw [hPerformed] at hTimed
    cases hTimed with
    | inTime hTold hOther =>
      exact .inTime hTold fun name seconds hSame =>
        hOther name seconds (congrArg Except.error (Except.error.inj hSame))
    | overran hLimit hTold => exact .overran hLimit hTold
  | ok finished =>
    rw [hPerformed] at hTimed
    cases hTimed with
    | inTime hTold _ =>
      refine .inTime hTold fun name seconds hSame => ?_
      cases hSuccess : finished.status.isSuccess <;>
        simp [bind, Except.bind, hSuccess, pure, Except.pure, throw, throwThe,
          MonadExceptOf.throw] at hSame

/-- **What a turn tells of limits** is what it comes to. -/
theorem Turn.timed (t : Turn h r o) :
    Timed (o.limitOf t.task) t.name t.attempt.result t.told := by
  cases t.fate with
  | cancelled _ hAttempt _ =>
    rw [told, hAttempt]
    exact .inTime rfl (by simp)
  | refused fault hRefusal hAttempt _ =>
    obtain ⟨error, operation, path, rfl⟩ := hRefusal
    rw [told, hAttempt]
    exact .inTime rfl (by simp)
  | skipped _ hAttempt _ =>
    rw [told, hAttempt]
    exact .inTime rfl (by simp)
  | aggregate _ _ hAttempt _ =>
    rw [told, hAttempt]
    exact .inTime rfl (by simp)
  | executed _ _ _ _ hLaunch _ _ _ _ => exact timed_of_launch hLaunch
  | failed _ _ _ _ hLaunch _ _ _ _ => exact timed_of_launch hLaunch

theorem Turn.overruns_told_of_ok {t : Turn h r o} {outcome : Outcome}
    (hResult : t.attempt.result = .ok outcome) : overruns t.told = [] := by
  have hTimed := t.timed
  rw [hResult] at hTimed
  cases hTimed with
  | inTime hTold _ => exact hTold

/-- What stops a run is looked at after the turn, when a cancellation may have arrived. -/
theorem Turn.timed_fault? (t : Turn h r o) :
    (overruns t.told = [] ∧ ∀ name seconds, t.fault? ≠ some (.taskTimedOut name seconds)) ∨
    ∃ limit, o.limitOf t.task = some limit ∧
      overruns t.told = [(t.name, clamp64 (limit / 1000))] ∧
      t.fault? = some (if h.cancelled (h.elapse t.attempt.world) then .cancelled (some t.name)
        else .taskTimedOut t.name (limit / 1000)) := by
  have hTimed := t.timed
  generalize hResult : t.attempt.result = result at hTimed
  cases hTimed with
  | inTime hTold hOther =>
    refine .inl ⟨hTold, fun name seconds hFault => ?_⟩
    exact hOther name seconds (hResult ▸ (t.cause_of_fault? hFault rfl).1)
  | @overran limit _ hLimit hTold =>
    refine .inr ⟨limit, hLimit, hTold, ?_⟩
    rw [fault?, hResult]
    simp [Fault.orCancelled, Fault.isCancelled, name]

/-- Turns that ended well tell nothing of limits. -/
theorem overruns_done {ts : List (Turn h r o)}
    (hEnded : ∀ t ∈ ts, ∃ outcome, t.attempt.result = .ok outcome) :
    overruns (ts.flatMap Turn.told) = [] := by
  induction ts with
  | nil => rfl
  | cons t rest ih =>
    obtain ⟨⟨outcome, hResult⟩, hRest⟩ := List.forall_mem_cons.mp hEnded
    rw [List.flatMap_cons, overruns_append, Turn.overruns_told_of_ok hResult, ih hRest,
      List.nil_append]

-- ---------------------------------------------------------------------------
-- Runs
-- ---------------------------------------------------------------------------

section Running

variable {target : String} {plan : List Task} {s : σ} {p : Point h r o}

theorem task_mem_of_mem_turns (hPlan : r.plan target = .ok plan) (hReached : p.Reached plan s)
    {t : Turn h r o} (hTurn : t ∈ p.turns) : t.task ∈ r.tasks :=
  (Registry.isPlan_of_plan hPlan).registered _
    (hReached.turns_isPrefix.subset (List.mem_map_of_mem hTurn))

theorem overruns_of_last (hPlan : r.plan target = .ok plan) (hReached : p.Reached plan s)
    (hLast : p.IsLast) :
    overruns (h.trace r o target s) = overruns (p.turn?.toList.flatMap Turn.told) := by
  have hTurns : overruns (p.turns.flatMap Turn.told) =
      overruns (p.turn?.toList.flatMap Turn.told) := by
    rw [Point.turns, List.flatMap_append, overruns_append, overruns_done hReached.ended,
      List.nil_append]
  have hLate : overruns (p.turns.flatMap Turn.toldLate) = [] := by
    rw [overruns, List.filterMap_eq_nil_iff]
    intro e he
    obtain ⟨t, -, hTold⟩ := List.mem_flatMap.mp he
    obtain ⟨stream, line, rfl⟩ := t.isOutput_of_mem_toldLate e hTold
    rfl
  rw [← hTurns, trace_of_last hPlan hReached hLast, overruns_append, hLate, List.append_nil]
  exact filterMap_between fun _ => rfl

/-- **What a run tells of limits**: nothing, or the limit of the one task that stops
it, which it then comes to unless a cancellation has arrived. -/
theorem overruns_of_run (h : Host σ) (r : Registry) (o : RunOptions) (target : String) (s : σ) :
    (overruns (h.trace r o target s) = [] ∧
      ∀ name seconds, (h.run r o target s).result ≠ .error (.taskTimedOut name seconds)) ∨
    ∃ task ∈ r.tasks, ∃ limit, o.limitOf task = some limit ∧
      overruns (h.trace r o target s) = [(task.name, clamp64 (limit / 1000))] ∧
      (h.run r o target s).result = .error (if h.cancelled (h.run r o target s).world
        then .cancelled (some task.name) else .taskTimedOut task.name (limit / 1000)) := by
  cases hPlan : r.plan target with
  | error fault =>
    refine .inl ⟨?_, fun name seconds hSame => ?_⟩
    · rw [Host.trace, Host.run, hPlan]
      rfl
    · rw [(run_of_fault hPlan s).1] at hSame
      obtain rfl := Except.error.inj hSame
      cases r.noProcess_plan target _ hPlan
  | ok plan =>
    obtain ⟨p, hReached, hLast, hWorld, hResult, -, -⟩ := run_of_plan (h := h) (o := o) hPlan s
    rw [overruns_of_last hPlan hReached hLast, hResult, hWorld]
    cases hTurn : p.turn? with
    | none =>
      have hFault : p.fault? = none := by
        rw [Point.fault?, hTurn]
        rfl
      rw [hFault]
      exact .inl ⟨rfl, by simp⟩
    | some t =>
      rw [Point.fault?_of_turn? hTurn, Point.final_of_turn? hTurn]
      have hTask : t.task ∈ r.tasks := task_mem_of_mem_turns hPlan hReached (by
        rw [Point.turns_of_turn? hTurn]
        simp)
      have hTold : overruns ((some t).toList.flatMap Turn.told) = overruns t.told := by simp
      rw [hTold]
      rcases t.timed_fault? with ⟨hNone, hOther⟩ | ⟨limit, hLimit, hOverrun, hFault⟩
      · refine .inl ⟨hNone, fun name seconds hSame => ?_⟩
        cases hFault : t.fault? with
        | none => simp [hFault] at hSame
        | some fault =>
          rw [hFault] at hSame
          obtain rfl := Except.error.inj hSame
          exact hOther name seconds hFault
      · refine .inr ⟨t.task, hTask, limit, hLimit, hOverrun, ?_⟩
        rw [hFault]
        rfl

end Running

-- ---------------------------------------------------------------------------
-- Where limits come from
-- ---------------------------------------------------------------------------

/-- How many seconds the task of an entry may take: what the entry says, or else the
command line, or else the settings. -/
def CommandLine.limitFor (c : CommandLine) (file : TaskFile) (e : TaskEntry) : Option UInt64 :=
  e.timeoutSecs.or (c.timeout.or file.settings.timeoutSecs)

/-- What is known of the file of a project. -/
theorem Project.declared_of_load {read : Path → Except SystemError String} {path : Path}
    {p : Project} (hLoad : load read path = .ok p) :
    ∃ source file, read path = .ok source ∧ TaskFile.parse source path = .ok file ∧
      file.settings.timeoutSecs ≠ some 0 ∧ (∀ e ∈ file.tasks, e.Valid) ∧
      p.settings = file.settings ∧ p.registry.tasks = file.tasks.map TaskEntry.declared := by
  rw [load] at hLoad
  obtain ⟨source, hSource, hLoad⟩ := Except.bind_eq_ok hLoad
  obtain ⟨file, hParse, hFile⟩ := Except.bind_eq_ok hLoad
  rw [ofFile] at hFile
  obtain ⟨_, hSettings, hFile⟩ := Except.bind_eq_ok hFile
  obtain ⟨registry, hRegistry, hFile⟩ := Except.bind_eq_ok hFile
  obtain ⟨_, -, hFile⟩ := Except.bind_eq_ok hFile
  obtain ⟨_, -, hFile⟩ := Except.bind_eq_ok hFile
  obtain rfl := Except.ok.inj hFile
  obtain ⟨hValid, hTasks⟩ := TaskFile.tasks_of_toRegistry hRegistry
  refine ⟨source, file, mapError_eq_ok_iff.mp hSource, hParse, fun hZero => ?_, hValid, rfl, hTasks⟩
  rw [Settings.check, if_pos hZero] at hSettings
  cases hSettings

section Origin

variable {arguments : List String} {c : CommandLine} {read : Path → Except SystemError String}
  {path : Path} {p : Project} {file : TaskFile} {e : TaskEntry}

/-- Seconds kept as milliseconds. -/
theorem limitOf_declared (hSettings : p.settings = file.settings) :
    (c.runOptions p).limitOf e.declared =
      (c.limitFor file e).map fun secs => secs.toNat * 1000 := by
  simp only [RunOptions.limitOf, TaskEntry.declared, CommandLine.runOptions,
    Settings.defaultTimeout, hSettings, CommandLine.limitFor, Option.map_or]

/-- **No limit is zero**, wherever it comes from. -/
theorem one_le_of_limitFor (hParse : CommandLine.parse arguments = .ok c)
    (hSettings : file.settings.timeoutSecs ≠ some 0) (hValid : e.Valid) {secs : UInt64}
    (hLimit : c.limitFor file e = some secs) : 1 ≤ secs.toNat := by
  have hPos : ∀ {found : UInt64}, found ≠ 0 → 1 ≤ found.toNat := by
    intro found hFound
    have hNat : found.toNat ≠ 0 := fun hZero => hFound (UInt64.toNat_inj.mp hZero)
    omega
  unfold CommandLine.limitFor at hLimit
  cases hOwn : e.timeoutSecs with
  | some own =>
    rw [hOwn] at hLimit
    obtain rfl := Option.some.inj hLimit
    exact hPos fun hZero => hValid.timeout (hZero ▸ hOwn)
  | none =>
    cases hGiven : c.timeout with
    | some given =>
      rw [hOwn, hGiven] at hLimit
      obtain rfl := Option.some.inj hLimit
      exact (CommandLine.parse_spec hParse).2.2.2 _ hGiven
    | none =>
      rw [hOwn, hGiven] at hLimit
      exact hPos fun hZero => hSettings (hZero ▸ hLimit)

/-- What is told of a limit is its seconds. -/
theorem clamp64_seconds (secs : UInt64) : clamp64 (secs.toNat * 1000 / 1000) = secs := by
  have hFits : secs.toNat < Word.count 64 := secs.toNat_lt
  have hMin : min secs.toNat (Word.count 64 - 1) = secs.toNat := by omega
  rw [Nat.mul_div_cancel _ (by decide), clamp64, hMin, UInt64.ofNat_toNat]

/-- A process is started with the limit of an entry. -/
theorem exists_entry_of_launch (hTasks : p.registry.tasks = file.tasks.map TaskEntry.declared)
    {target : String} {s : σ} {launch : Launch}
    (hLaunch : launch ∈ h.launches p.registry o target s) :
    ∃ e ∈ file.tasks, ∃ action, e.declared.action = some action ∧
      launch = o.launch e.declared action := by
  cases hPlan : p.registry.plan target with
  | error fault =>
    rw [(run_of_fault hPlan s).2] at hLaunch
    cases hLaunch
  | ok plan =>
    obtain ⟨q, hReached, -, -, -, hLaunches, -⟩ := run_of_plan (h := h) (o := o) hPlan s
    rw [hLaunches] at hLaunch
    obtain ⟨t, hTurn, hStarted⟩ := List.mem_filterMap.mp hLaunch
    obtain ⟨action, hAction, rfl, -⟩ := t.attempt_of_launch hStarted
    have hTask := task_mem_of_mem_turns hPlan hReached hTurn
    rw [hTasks] at hTask
    obtain ⟨e, hEntry, hDeclared⟩ := List.mem_map.mp hTask
    exact ⟨e, hEntry, action, hDeclared ▸ hAction, hDeclared ▸ rfl⟩

end Origin

/--
**Limits hold.** For all arguments that make up a command line, and every task file
that makes up a project:

* the tasks of the project are those of the entries, and the limit of each is what
  its entry says, or else the command line, or else the settings, in whole seconds;
* no limit is below one second;
* whatever the host does, each process of a run is that of an entry, and is started
  with its limit, so with none that is zero;
* a run tells of no limit and does not come to one, or it tells the limit of one
  entry, once; then it comes to the same limit, in the same seconds, unless a
  cancellation has arrived by its end.
-/
theorem limits_hold {arguments : List String} {c : CommandLine}
    {read : Path → Except SystemError String} {path : Path} {p : Project}
    (hParse : CommandLine.parse arguments = .ok c) (hLoad : Project.load read path = .ok p) :
    ∃ source file, read path = .ok source ∧ TaskFile.parse source path = .ok file ∧
      p.registry.tasks = file.tasks.map TaskEntry.declared ∧
      (∀ e ∈ file.tasks,
        (c.runOptions p).limitOf e.declared =
          (c.limitFor file e).map (fun secs => secs.toNat * 1000) ∧
        ∀ secs, c.limitFor file e = some secs → 1 ≤ secs.toNat) ∧
      ∀ (σ : Type) (h : Host σ) (target : String) (s : σ),
        (∀ launch ∈ h.launches p.registry (c.runOptions p) target s,
          ∃ e ∈ file.tasks, ∃ action, e.declared.action = some action ∧
            launch = (c.runOptions p).launch e.declared action ∧
            launch.limit = (c.limitFor file e).map (fun secs => secs.toNat * 1000) ∧
            launch.limit ≠ some 0) ∧
        let told := overruns (h.trace p.registry (c.runOptions p) target s)
        let run := h.run p.registry (c.runOptions p) target s
        (told = [] ∧ ∀ name seconds, run.result ≠ .error (.taskTimedOut name seconds)) ∨
          ∃ e ∈ file.tasks, ∃ secs, c.limitFor file e = some secs ∧ told = [(e.name, secs)] ∧
            run.result = .error (if h.cancelled run.world then .cancelled (some e.name)
              else .taskTimedOut e.name secs.toNat) := by
  obtain ⟨source, file, hRead, hFile, hNotZero, hValid, hSettings, hTasks⟩ :=
    Project.declared_of_load hLoad
  refine ⟨source, file, hRead, hFile, hTasks, fun e hEntry => ⟨limitOf_declared hSettings,
    fun secs => one_le_of_limitFor hParse hNotZero (hValid e hEntry)⟩, ?_⟩
  intro σ h target s
  constructor
  · intro launch hLaunch
    obtain ⟨e, hEntry, action, hAction, rfl⟩ := exists_entry_of_launch hTasks hLaunch
    have hLimit : ((c.runOptions p).launch e.declared action).limit =
        (c.limitFor file e).map fun secs => secs.toNat * 1000 := limitOf_declared hSettings
    refine ⟨e, hEntry, action, hAction, rfl, hLimit, fun hZero => ?_⟩
    rw [hLimit] at hZero
    obtain ⟨secs, hSecs, hNone⟩ := Option.map_eq_some_iff.mp hZero
    have hLeast := one_le_of_limitFor hParse hNotZero (hValid e hEntry) hSecs
    omega
  · intro told run
    rcases overruns_of_run h p.registry (c.runOptions p) target s with
      hInTime | ⟨task, hTask, limit, hLimit, hTold, hResult⟩
    · exact .inl hInTime
    · rw [hTasks] at hTask
      obtain ⟨e, hEntry, rfl⟩ := List.mem_map.mp hTask
      rw [limitOf_declared hSettings] at hLimit
      obtain ⟨secs, hSecs, rfl⟩ := Option.map_eq_some_iff.mp hLimit
      rw [clamp64_seconds] at hTold
      rw [Nat.mul_div_cancel _ (by decide)] at hResult
      exact .inr ⟨e, hEntry, secs, hSecs, hTold, hResult⟩

namespace Lone

/-- A place where no process with a limit ends before it. -/
def slow : Host Unit where
  elapse := id
  cancelled _ := false
  now _ := 0
  modified _ _ := .error .notFound
  perform _ launch :=
    let ending :=
      if hLimited : launch.limit.isSome then .overran hLimited else .byItself (.exited 0)
    (.ok ⟨ending, [], [], fun _ => 0⟩, ())

/-- A command line with a limit of five seconds. -/
def hurried : CommandLine :=
  { CommandLine.plain with task := some "lone", file := some ⟨"f"⟩, timeout := some 5 }

theorem run_overruns :
    (slow.run project.registry (hurried.runOptions project) "lone" ()).result =
      .error (.taskTimedOut "lone" 5) := by
  let t : Turn slow project.registry (hurried.runOptions project) := ⟨task, [], ()⟩
  have hCheck : t.view.check t.task = .ok .missing := by cbv
  obtain ⟨-, -, -, -, hResult⟩ := t.attempt_of_action rfl hCheck (by simp) rfl
  have hPerformed : (slow.performAction (hurried.runOptions project) t.task ⟨"act", []⟩
      t.ready).result = .error (.taskTimedOut "lone" 5) := by cbv
  refine run_of_head plan_lone (?_ : t.fault? = _)
  rw [Turn.fault?, hResult, hPerformed]
  rfl

/-- A task that sets no limit itself is stopped at that of the command line. -/
theorem limits_hold_lone :
    CommandLine.parse ["--timeout", "5", "--file", "f", "lone"] = .ok hurried ∧
    Project.load (fun _ => .ok text) ⟨"f"⟩ = .ok project ∧
    overruns (slow.trace project.registry (hurried.runOptions project) "lone" ()) =
      [("lone", 5)] := by
  have hParse : CommandLine.parse ["--timeout", "5", "--file", "f", "lone"] = .ok hurried := rfl
  refine ⟨hParse, load_text, ?_⟩
  obtain ⟨_, _, -, -, -, -, hRuns⟩ := limits_hold hParse load_text
  obtain ⟨-, hTold⟩ := hRuns Unit slow "lone" ()
  rcases hTold with ⟨-, hNone⟩ | ⟨e, -, secs, -, hTold, hResult⟩
  · exact absurd run_overruns (hNone "lone" 5)
  · rw [run_overruns] at hResult
    obtain ⟨hName, hSecs⟩ := Fault.taskTimedOut.inj (Except.error.inj hResult)
    have hFive : secs = 5 := UInt64.toNat_inj.mp hSecs.symm
    rw [hTold, ← hName, hFive]

end Lone

end TaskMill
