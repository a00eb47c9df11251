import TaskMill.Proofs.Fallible
import TaskMill.Proofs.Freshness
import TaskMill.Run.Plan
/-!
# TaskMill — turns

A run gives each task of its plan a **turn**: it looks whether the run has been
cancelled, looks whether the task has to be performed, and performs it. What a
turn can come to is said once, with all that is known in each case
(`Turn.fate`); where it ended well (`Turn.ended`) or with a fault
(`Turn.exit?_of_error`) this is put in fewer cases. Everything about runs rests
on these three.

A task **ran** in its turn if its process exited with success. That is the case
exactly if its outcome says so (`Turn.ran_iff`).
-/

namespace TaskMill

variable {σ : Type} {h : Host σ} {r : Registry} {o : RunOptions}

-- ---------------------------------------------------------------------------
-- Turns
-- ---------------------------------------------------------------------------

/-- The status of a process that ended by itself. -/
def Ending.status? {limit : Option Nat} : Ending limit → Option ExitStatus
  | .byItself status => some status
  | _ => none

/-- How the process of a launch exits, if it can be started and ends by
itself. -/
def Host.exit? (h : Host σ) (s : σ) (launch : Launch) : Option ExitStatus :=
  (h.perform s launch).1.toOption.bind fun p => p.ending.status?

/-- A task's turn in a run: the task, the tasks executed before it, and the
state of the host before it. -/
structure Turn (h : Host σ) (r : Registry) (o : RunOptions) where
  task : Task
  executed : List String
  world : σ

namespace Turn

variable (t : Turn h r o)

/-- The name of the task. -/
def name : String := t.task.name

/-- The state of the host when the task is looked at. -/
def ready : σ := h.elapse t.world

/-- What the look at the task sees. -/
def view : Freshness.View := h.view r o t.executed t.ready

/-- What the turn comes to. -/
def attempt : Attempt σ Outcome := h.take r o t.executed t.task t.world

/-- What became of the task, if it ended well. -/
def outcome? : Option Outcome := t.attempt.result.toOption

/-- What stops the run if the task did not end well. -/
def fault? : Option Fault :=
  match t.attempt.result with
  | .ok _ => none
  | .error fault => some (fault.orCancelled t.task (h.cancelled (h.elapse t.attempt.world)))

/-- What the task's process is started with, if the turn gets as far as that. -/
def launch? : Option Launch :=
  if h.cancelled t.ready then none
  else match t.view.check t.task with
    | .error _ => none
    | .ok .upToDate => none
    | .ok _ => t.task.action.map (o.launch t.task)

/-- How the task's process exited, if it was started and ended by itself. -/
def exit? : Option ExitStatus := t.launch?.bind (h.exit? t.ready)

/-- The task's process ran, and exited with success. -/
def Ran : Prop := ∃ status, t.exit? = some status ∧ status.isSuccess = true

/-- The task ended as executed with success, as skipped or as an aggregate,
under its own name. -/
def EndedWell : Prop :=
  match t.attempt.result with
  | .ok (.executed name finished) => name = t.name ∧ finished.status.isSuccess = true
  | .ok (.skipped name) => name = t.name
  | .ok (.aggregate name) => name = t.name
  | .error _ => False

end Turn

-- ---------------------------------------------------------------------------
-- Performing an action
-- ---------------------------------------------------------------------------

section Performing

variable {task : Task} {action : Action} {s : σ}

theorem performAction_of_error {error : SystemError} {t : σ}
    (hPerform : h.perform s (o.launch task action) = (.error error, t)) :
    h.performAction o task action s =
      ⟨.error (.io error s!"spawn task {task.name} ({action.command})" (some (o.directoryOf task))),
        [.event (.task (.started task.name action.line))], [], t⟩ := by
  simp only [Host.performAction, hPerform]
  rfl

/-- A process that did not end by itself, or that exited without success when
the run was interrupted, has not finished. -/
theorem performAction_of_ok {p : Performance (o.launch task action)} {t : σ}
    (hPerform : h.perform s (o.launch task action) = (.ok p, t)) :
    (h.performAction o task action s).world = t ∧
    match p.ending.status? with
    | none => ∃ fault, (h.performAction o task action s).result = .error fault ∧
        ∀ name code output, fault ≠ .taskFailed name code output
    | some status =>
        (status.isSuccess = false ∧
          (h.performAction o task action s).result = .error (.cancelled (some task.name))) ∨
        (h.performAction o task action s).result =
          .ok ⟨status, o.captured p.stdout, o.captured p.stderr⟩ := by
  simp only [Host.performAction, hPerform]
  cases p.ending with
  | overran limited => exact ⟨rfl, _, rfl, by simp⟩
  | cancelled => exact ⟨rfl, _, rfl, by simp⟩
  | lost error late => exact ⟨rfl, _, rfl, by simp⟩
  | byItself status =>
    dsimp only [Ending.status?]
    split
    case isTrue hInterrupted =>
      simp only [Bool.and_eq_true, Bool.not_eq_true'] at hInterrupted
      exact ⟨rfl, .inl ⟨hInterrupted.1, rfl⟩⟩
    case isFalse => exact ⟨rfl, .inr rfl⟩

end Performing

-- ---------------------------------------------------------------------------
-- What a turn comes to
-- ---------------------------------------------------------------------------

namespace Turn

/-- Everything that a turn can come to. -/
inductive Fate (t : Turn h r o) : Prop
  /-- The run had been cancelled before. -/
  | cancelled (hCancelled : h.cancelled t.ready = true)
      (hAttempt : t.attempt = ⟨.error (.cancelled none), [], [], t.ready⟩)
      (hLaunch : t.launch? = none)
  /-- The operating system refused to tell the time of an artifact. -/
  | refused (fault : Fault) (hRefusal : Freshness.View.IsRefusal fault)
      (hAttempt : t.attempt = ⟨.error fault, [], [], t.ready⟩)
      (hLaunch : t.launch? = none)
  /-- The artifact was up to date. -/
  | skipped (hCheck : t.view.check t.task = .ok .upToDate)
      (hAttempt : t.attempt = ⟨.ok (.skipped t.name),
        [.event (.task (.skipped t.name Freshness.upToDate.reason))], [], t.ready⟩)
      (hLaunch : t.launch? = none)
  /-- There was something to do, and no action to do it. -/
  | aggregate (hCheck : t.view.check t.task ≠ .ok .upToDate) (hAction : t.task.action = none)
      (hAttempt : t.attempt = ⟨.ok (.aggregate t.name), [], [], t.ready⟩)
      (hLaunch : t.launch? = none)
  /-- The process ran and exited with success. -/
  | executed (action : Action) (finished : Finished)
      (hCheck : t.view.check t.task ≠ .ok .upToDate) (hAction : t.task.action = some action)
      (hLaunch : t.launch? = some (o.launch t.task action))
      (hWorld : t.attempt.world = (h.perform t.ready (o.launch t.task action)).2)
      (hExit : t.exit? = some finished.status) (hSuccess : finished.status.isSuccess = true)
      (hResult : t.attempt.result = .ok (.executed t.name finished))
  /-- The process could not be started, or did not exit with success. -/
  | failed (action : Action) (fault : Fault)
      (hCheck : t.view.check t.task ≠ .ok .upToDate) (hAction : t.task.action = some action)
      (hLaunch : t.launch? = some (o.launch t.task action))
      (hWorld : t.attempt.world = (h.perform t.ready (o.launch t.task action)).2)
      (hExit : ∀ status, t.exit? = some status → status.isSuccess = false)
      (hResult : t.attempt.result = .error fault)
      (hFault : ∀ name code output, fault = .taskFailed name code output →
        name = t.name ∧ ∃ status, t.exit? = some status ∧ status.code? = code)

variable (t : Turn h r o)

/-- What is done about a task that has to be performed and has an action. -/
theorem attempt_of_action {action : Action} {freshness : Freshness}
    (hCancelled : h.cancelled t.ready = false) (hCheck : t.view.check t.task = .ok freshness)
    (hNot : freshness ≠ .upToDate) (hAction : t.task.action = some action) :
    t.launch? = some (o.launch t.task action) ∧
      t.attempt.world = (h.performAction o t.task action t.ready).world ∧
      t.attempt.emissions = (h.performAction o t.task action t.ready).emissions ∧
      t.attempt.late = (h.performAction o t.task action t.ready).late ∧
      t.attempt.result = (do
        let finished ← (h.performAction o t.task action t.ready).result
        if finished.status.isSuccess then return .executed t.name finished
        throw (.taskFailed t.name finished.status.code? finished.snippet)) := by
  have hSeen : (h.view r o t.executed (h.elapse t.world)).check t.task = .ok freshness := hCheck
  have hGoes : h.cancelled (h.elapse t.world) = false := hCancelled
  simp only [launch?, hCancelled, hCheck, attempt, Host.take, hGoes, Host.handle, hSeen, hAction]
  cases freshness <;> first | exact absurd rfl hNot | exact ⟨rfl, rfl, rfl, rfl, rfl⟩

/-- Where a process is started, it is the one of the task's action, and the turn
comes to what performing that comes to. -/
theorem attempt_of_launch {launch : Launch} (hLaunch : t.launch? = some launch) :
    ∃ action, t.task.action = some action ∧ launch = o.launch t.task action ∧
      t.attempt.world = (h.performAction o t.task action t.ready).world ∧
      t.attempt.emissions = (h.performAction o t.task action t.ready).emissions ∧
      t.attempt.late = (h.performAction o t.task action t.ready).late ∧
      t.attempt.result = (do
        let finished ← (h.performAction o t.task action t.ready).result
        if finished.status.isSuccess then return .executed t.name finished
        throw (.taskFailed t.name finished.status.code? finished.snippet)) := by
  cases hCancelled : h.cancelled t.ready with
  | true => simp [launch?, hCancelled] at hLaunch
  | false =>
    cases hCheck : t.view.check t.task with
    | error fault => simp [launch?, hCancelled, hCheck] at hLaunch
    | ok freshness =>
      have hNot : freshness ≠ .upToDate := by
        rintro rfl
        simp [launch?, hCancelled, hCheck] at hLaunch
      cases hAction : t.task.action with
      | none => cases freshness <;> simp [launch?, hCancelled, hCheck, hAction] at hLaunch
      | some action =>
        obtain ⟨hStarted, hComesTo⟩ := t.attempt_of_action hCancelled hCheck hNot hAction
        exact ⟨action, rfl, Option.some.inj (hLaunch.symm.trans hStarted), hComesTo⟩

/-- What a turn comes to when a process is to be started. -/
theorem fate_of_action {action : Action} {freshness : Freshness}
    (hCancelled : h.cancelled t.ready = false) (hCheck : t.view.check t.task = .ok freshness)
    (hNot : freshness ≠ .upToDate) (hAction : t.task.action = some action) : t.Fate := by
  obtain ⟨hLaunch, hWorld, -, -, hResult⟩ := t.attempt_of_action hCancelled hCheck hNot hAction
  have hStale : t.view.check t.task ≠ .ok .upToDate := by simpa [hCheck] using hNot
  cases hPerform : h.perform t.ready (o.launch t.task action) with
  | mk answer after =>
    cases answer with
    | error error =>
      -- the process could not be started
      have hExit : t.exit? = none := by
        rw [exit?, hLaunch, Option.bind_some, Host.exit?, hPerform]
        rfl
      rw [performAction_of_error hPerform] at hResult hWorld
      exact .failed action _ hStale hAction hLaunch (by rw [hWorld, hPerform]) (by simp [hExit])
        hResult (by simp)
    | ok p =>
      have hExit : t.exit? = p.ending.status? := by
        rw [exit?, hLaunch, Option.bind_some, Host.exit?, hPerform]
        rfl
      obtain ⟨hAfter, hSpec⟩ := performAction_of_ok hPerform
      replace hWorld : t.attempt.world = (h.perform t.ready (o.launch t.task action)).2 := by
        rw [hWorld, hAfter, hPerform]
      rw [← hExit] at hSpec
      cases hStatus : t.exit? with
      | none =>
        -- it did not end by itself
        rw [hStatus] at hSpec
        obtain ⟨fault, hEnd, hOther⟩ := hSpec
        rw [hEnd] at hResult
        exact .failed action fault hStale hAction hLaunch hWorld (by simp [hStatus]) hResult
          fun name code output hFault => absurd hFault (hOther name code output)
      | some status =>
        rw [hStatus] at hSpec
        -- a failure counts as a cancellation if there was one; else the status decides
        rcases hSpec with ⟨hFailed, hEnd⟩ | hEnd
        · rw [hEnd] at hResult
          exact .failed action _ hStale hAction hLaunch hWorld (by simp [hStatus, hFailed]) hResult
            (by simp)
        · rw [hEnd] at hResult
          replace hResult : t.attempt.result = if status.isSuccess then .ok (.executed t.name _)
            else .error (.taskFailed t.name status.code? _) := hResult
          cases hSuccess : status.isSuccess with
          | true =>
            rw [hSuccess, if_pos rfl] at hResult
            exact .executed action _ hStale hAction hLaunch hWorld hStatus hSuccess hResult
          | false =>
            rw [hSuccess, if_neg (by simp)] at hResult
            refine .failed action _ hStale hAction hLaunch hWorld (by simp [hStatus, hSuccess])
              hResult ?_
            rintro name code output hFault
            obtain ⟨rfl, rfl, -⟩ := Fault.taskFailed.inj hFault
            exact ⟨rfl, status, hStatus, rfl⟩

theorem attempt_eq : t.attempt =
    if h.cancelled t.ready then ⟨.error (.cancelled none), [], [], t.ready⟩
    else h.handle r o t.executed t.task t.ready :=
  rfl

/-- What is done about a task that is up to date. -/
theorem attempt_of_upToDate (hCancelled : h.cancelled t.ready = false)
    (hCheck : t.view.check t.task = .ok .upToDate) :
    t.attempt = ⟨.ok (.skipped t.name),
      [.event (.task (.skipped t.name Freshness.upToDate.reason))], [], t.ready⟩ := by
  have hSeen : (h.view r o t.executed t.ready).check t.task = .ok .upToDate := hCheck
  simp only [attempt_eq, hCancelled, Host.handle, hSeen]
  rfl

/-- What is done about a task that has to be performed and has no action. -/
theorem attempt_of_aggregate {freshness : Freshness} (hCancelled : h.cancelled t.ready = false)
    (hCheck : t.view.check t.task = .ok freshness) (hNot : freshness ≠ .upToDate)
    (hAction : t.task.action = none) :
    t.attempt = ⟨.ok (.aggregate t.name), [], [], t.ready⟩ := by
  have hSeen : (h.view r o t.executed t.ready).check t.task = .ok freshness := hCheck
  simp only [attempt_eq, hCancelled, Host.handle, hSeen, hAction]
  cases freshness <;> first | exact absurd rfl hNot | rfl

theorem launch?_of_no_action (hAction : t.task.action = none) : t.launch? = none := by
  unfold launch?
  split
  · rfl
  · rw [hAction]
    split <;> rfl

theorem launch?_of_upToDate (hCheck : t.view.check t.task = .ok .upToDate) : t.launch? = none := by
  unfold launch?
  split
  · rfl
  · rw [hCheck]

/-- **What a turn comes to**, whatever the host does. -/
theorem fate : t.Fate := by
  have hTake := t.attempt_eq
  have hView : h.view r o t.executed t.ready = t.view := rfl
  cases hCancelled : h.cancelled t.ready with
  | true =>
    exact .cancelled hCancelled (by simp [hTake, hCancelled]) (by simp [launch?, hCancelled])
  | false =>
    rw [hCancelled, if_neg (by simp), Host.handle, hView] at hTake
    cases hCheck : t.view.check t.task with
    | error fault =>
      exact .refused fault (Freshness.View.check_error hCheck) (by rw [hTake, hCheck])
        (by simp [launch?, hCancelled, hCheck])
    | ok freshness =>
      by_cases hFresh : freshness = .upToDate
      · subst hFresh
        exact .skipped hCheck (t.attempt_of_upToDate hCancelled hCheck)
          (t.launch?_of_upToDate hCheck)
      · have hStale : t.view.check t.task ≠ .ok .upToDate := by simpa [hCheck] using hFresh
        cases hAction : t.task.action with
        | some action => exact t.fate_of_action hCancelled hCheck hFresh hAction
        | none =>
          exact .aggregate hStale hAction
            (t.attempt_of_aggregate hCancelled hCheck hFresh hAction)
            (t.launch?_of_no_action hAction)

variable {t}

theorem exit?_eq_none (hLaunch : t.launch? = none) : t.exit? = none := by
  rw [exit?, hLaunch]
  rfl

theorem not_ran_of_exit? (hExit : t.exit? = none) : ¬ t.Ran := by
  simp [Ran, hExit]

/-- What a turn that ended well has come to. -/
inductive Ended (t : Turn h r o) : Outcome → Prop
  | skipped (hCheck : t.view.check t.task = .ok .upToDate) (hExit : t.exit? = none) :
      t.Ended (.skipped t.name)
  | aggregate (hCheck : t.view.check t.task ≠ .ok .upToDate) (hAction : t.task.action = none)
      (hExit : t.exit? = none) : t.Ended (.aggregate t.name)
  | executed (action : Action) (finished : Finished)
      (hCheck : t.view.check t.task ≠ .ok .upToDate) (hAction : t.task.action = some action)
      (hLaunch : t.launch? = some (o.launch t.task action))
      (hWorld : t.attempt.world = (h.perform t.ready (o.launch t.task action)).2)
      (hExit : t.exit? = some finished.status) (hSuccess : finished.status.isSuccess = true) :
      t.Ended (.executed t.name finished)

theorem ended {outcome : Outcome} (hResult : t.attempt.result = .ok outcome) : t.Ended outcome := by
  cases t.fate with
  | cancelled _ hAttempt _ => simp [hAttempt] at hResult
  | refused _ _ hAttempt _ => simp [hAttempt] at hResult
  | skipped hCheck hAttempt hLaunch =>
    rw [hAttempt] at hResult
    obtain rfl := Except.ok.inj hResult
    exact .skipped hCheck (exit?_eq_none hLaunch)
  | aggregate hCheck hAction hAttempt hLaunch =>
    rw [hAttempt] at hResult
    obtain rfl := Except.ok.inj hResult
    exact .aggregate hCheck hAction (exit?_eq_none hLaunch)
  | executed action finished hCheck hAction hLaunch hWorld hExit hSuccess hEnded =>
    obtain rfl := Except.ok.inj (hEnded.symm.trans hResult)
    exact .executed action finished hCheck hAction hLaunch hWorld hExit hSuccess
  | failed _ _ _ _ _ _ _ hFailed _ => simp [hFailed] at hResult

/-- No process exits with success in a turn that ends with a fault, and a failed
task that is told is the one whose turn it is. -/
theorem exit?_of_error {fault : Fault} (hResult : t.attempt.result = .error fault) :
    (∀ status, t.exit? = some status → status.isSuccess = false) ∧
      ∀ name code output, fault = .taskFailed name code output →
        name = t.name ∧ ∃ status, t.exit? = some status ∧ status.code? = code := by
  cases t.fate with
  | cancelled _ hAttempt hLaunch =>
    rw [hAttempt] at hResult
    obtain rfl := Except.error.inj hResult
    simp [exit?_eq_none hLaunch]
  | refused fault' hRefusal hAttempt hLaunch =>
    rw [hAttempt] at hResult
    obtain rfl := Except.error.inj hResult
    obtain ⟨error, operation, path, rfl⟩ := hRefusal
    simp [exit?_eq_none hLaunch]
  | skipped _ hAttempt _ => simp [hAttempt] at hResult
  | aggregate _ _ hAttempt _ => simp [hAttempt] at hResult
  | executed _ _ _ _ _ _ _ _ hEnded => simp [hEnded] at hResult
  | failed _ fault' _ _ _ _ hExit hFailed hFault =>
    obtain rfl := Except.error.inj (hFailed.symm.trans hResult)
    exact ⟨hExit, hFault⟩

/-- An outcome has the name of its task. -/
theorem outcome_name {outcome : Outcome} (hResult : t.attempt.result = .ok outcome) :
    outcome.name = t.name := by
  cases ended hResult <;> rfl

/-- A process ran with success where the task ended as executed. -/
theorem ran_iff : t.Ran ↔ ∃ finished, t.attempt.result = .ok (.executed t.name finished) := by
  unfold Ran
  cases hResult : t.attempt.result with
  | error fault => simpa using (exit?_of_error hResult).1
  | ok outcome =>
    cases ended hResult with
    | skipped _ hExit => simp [hExit]
    | aggregate _ _ hExit => simp [hExit]
    | executed _ _ _ _ _ _ hExit hSuccess => simp [hExit, hSuccess]

/-- So the outcomes tell what ran. -/
theorem ran_iff_outcome? :
    t.Ran ↔ ∃ outcome, t.outcome? = some outcome ∧ outcome.isExecuted = true := by
  rw [ran_iff]
  constructor
  · rintro ⟨finished, hResult⟩
    exact ⟨_, toOption_eq_some_iff.mpr hResult, rfl⟩
  · rintro ⟨outcome, hOutcome, hExecuted⟩
    have hResult := toOption_eq_some_iff.mp hOutcome
    cases ended hResult with
    | skipped _ _ => cases hExecuted
    | aggregate _ _ _ => cases hExecuted
    | executed _ finished _ _ _ _ _ _ => exact ⟨finished, hResult⟩

theorem action_isSome_of_ran (hRan : t.Ran) : t.task.action.isSome = true := by
  obtain ⟨finished, hResult⟩ := ran_iff.mp hRan
  cases ended hResult with
  | executed _ _ _ hAction _ _ _ _ => simp [hAction]

/-- A turn ends well as soon as it ends with an outcome. -/
theorem endedWell_iff : t.EndedWell ↔ ∃ outcome, t.attempt.result = .ok outcome := by
  unfold EndedWell
  cases hResult : t.attempt.result with
  | error fault => simp
  | ok outcome =>
    cases ended hResult with
    | skipped _ _ => simp
    | aggregate _ _ _ => simp
    | executed _ _ _ _ _ _ _ hSuccess => simp [hSuccess]

/-- In a turn that ended well, a process that exited did so with success. -/
theorem isSuccess_of_endedWell (hEnded : t.EndedWell) {status : ExitStatus}
    (hExit : t.exit? = some status) : status.isSuccess = true := by
  obtain ⟨outcome, hResult⟩ := endedWell_iff.mp hEnded
  cases ended hResult with
  | skipped _ hNone => simp [hNone] at hExit
  | aggregate _ _ hNone => simp [hNone] at hExit
  | executed _ _ _ _ _ _ hStatus hSuccess =>
    obtain rfl := Option.some.inj (hStatus.symm.trans hExit)
    exact hSuccess

/-- What stops a run is what its turn came to, unless a cancellation came in
between. -/
theorem fault?_eq_some_iff {fault : Fault} : t.fault? = some fault ↔
    ∃ cause, t.attempt.result = .error cause ∧
      cause.orCancelled t.task (h.cancelled (h.elapse t.attempt.world)) = fault := by
  unfold fault?
  cases t.attempt.result <;> simp

theorem not_endedWell_of_fault? {fault : Fault} (hFault : t.fault? = some fault) :
    ¬ t.EndedWell := by
  rw [endedWell_iff]
  rintro ⟨outcome, hResult⟩
  obtain ⟨cause, hCause, -⟩ := fault?_eq_some_iff.mp hFault
  simp [hCause] at hResult

theorem not_ran_of_fault? {fault : Fault} (hFault : t.fault? = some fault) : ¬ t.Ran := by
  rw [ran_iff]
  rintro ⟨finished, hResult⟩
  exact not_endedWell_of_fault? hFault (endedWell_iff.mpr ⟨_, hResult⟩)

/-- A task is skipped only if it is up to date. -/
theorem check_of_skipped {name : String} (hOutcome : t.outcome? = some (.skipped name)) :
    t.view.check t.task = .ok .upToDate := by
  cases ended (toOption_eq_some_iff.mp hOutcome) with
  | skipped hCheck _ => exact hCheck

/-- A task with an action that ended well without its process running is up to
date. -/
theorem check_of_not_ran {outcome : Outcome} (hResult : t.attempt.result = .ok outcome)
    (hAction : t.task.action.isSome = true) (hRan : ¬ t.Ran) :
    t.view.check t.task = .ok .upToDate := by
  cases ended hResult with
  | skipped hCheck _ => exact hCheck
  | aggregate _ hNone _ => simp [hNone] at hAction
  | executed _ _ _ _ _ _ hExit hSuccess => exact absurd ⟨_, hExit, hSuccess⟩ hRan

theorem map_name_task (ts : List (Turn h r o)) :
    (ts.map Turn.task).map Task.name = ts.map Turn.name :=
  List.map_map

end Turn

/-- A task of that name ran in one of the turns. -/
def RanIn (ts : List (Turn h r o)) (name : String) : Prop := ∃ y ∈ ts, y.Ran ∧ y.name = name

theorem ranIn_concat {ts : List (Turn h r o)} {t : Turn h r o} {name : String} :
    RanIn (ts ++ [t]) name ↔ RanIn ts name ∨ (t.Ran ∧ t.name = name) := by
  simp [RanIn, or_and_right, exists_or]

/-- The outcomes of turns tell which tasks ran. -/
theorem mem_names_executed_iff {ts : List (Turn h r o)} {name : String} :
    name ∈ ((ts.filterMap Turn.outcome?).filter Outcome.isExecuted).map Outcome.name ↔
      RanIn ts name := by
  have hTurn : ∀ t : Turn h r o, (∃ outcome, t.outcome? = some outcome ∧
      outcome.isExecuted = true ∧ outcome.name = name) ↔ t.Ran ∧ t.name = name := by
    intro t
    rw [Turn.ran_iff_outcome?]
    constructor
    · rintro ⟨outcome, hOutcome, hExecuted, rfl⟩
      exact ⟨⟨outcome, hOutcome, hExecuted⟩,
        (Turn.outcome_name (toOption_eq_some_iff.mp hOutcome)).symm⟩
    · rintro ⟨⟨outcome, hOutcome, hExecuted⟩, rfl⟩
      exact ⟨outcome, hOutcome, hExecuted, Turn.outcome_name (toOption_eq_some_iff.mp hOutcome)⟩
  simp only [List.mem_map, List.mem_filter, List.mem_filterMap, RanIn, ← hTurn]
  constructor
  · rintro ⟨outcome, ⟨⟨t, ht, hOutcome⟩, hExecuted⟩, hName⟩
    exact ⟨t, ht, outcome, hOutcome, hExecuted, hName⟩
  · rintro ⟨t, ht, outcome, hOutcome, hExecuted, hName⟩
    exact ⟨outcome, ⟨⟨t, ht, hOutcome⟩, hExecuted⟩, hName⟩

end TaskMill
