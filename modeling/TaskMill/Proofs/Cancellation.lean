import Mathlib
import TaskMill.Command.Output
import TaskMill.Proofs.Faults
import TaskMill.Proofs.Trace
import TaskMill.Rehearsal.Machine
/-!
# TaskMill — cancellations

A cancellation can arrive at any time: before a task is looked at, while it is
looked at, while its process goes on or after that has ended. Wherever it
arrives, it **prevails** over what went wrong otherwise. A run that it finds
between two tasks starts no other process, and a run that fails after it has
arrived comes to a cancellation, whatever the failure was; so does a command.
Only planning, which comes before a run looks out for a cancellation at all, has
faults of its own.

This takes little of the host (`Host.Latched`): a cancellation that has arrived
does not go away, and the processes that it ends are ended after it has arrived.
The machine for rehearsals is such a host (`Machine.latched`).

## Results

* `Latched.preserves` — a cancellation stays to the end of a run.
* `run_of_ready`, `run_of_cancelled` — what a run comes to that it finds.
* `isInterrupt_of_run` — what is told as a cancellation where none has arrived.
* `cancellation_prevails` — all this together.
-/

namespace TaskMill

variable {σ : Type} {h : Host σ} {r : Registry} {o : RunOptions}

-- ---------------------------------------------------------------------------
-- Latched hosts
-- ---------------------------------------------------------------------------

/-- A cancellation that has arrived stays, and it ends no process before it has
arrived. -/
structure Host.Latched (h : Host σ) : Prop where
  elapsed   : ∀ s, h.cancelled s = true → h.cancelled (h.elapse s) = true
  performed : ∀ s launch, h.cancelled s = true → h.cancelled (h.perform s launch).2 = true
  heeded    : ∀ s launch p t, h.perform s launch = (.ok p, t) → p.ending = .cancelled →
    h.cancelled t = true

theorem Host.Latched.preserves (hLatched : h.Latched) :
    h.Preserves fun s => h.cancelled s = true :=
  ⟨hLatched.elapsed, hLatched.performed⟩

-- ---------------------------------------------------------------------------
-- Turns that come to a cancellation
-- ---------------------------------------------------------------------------

/-- Where no cancellation has arrived, performing an action comes to one only if
the process was interrupted. -/
theorem performAction_cancelled (hLatched : h.Latched) {task : Task} {action : Action} {s : σ}
    {name : Option String}
    (hResult : (h.performAction o task action s).result = .error (.cancelled name))
    (hNot : h.cancelled (h.performAction o task action s).world = false) :
    name = some task.name ∧
      ∃ status, h.exit? s (o.launch task action) = some status ∧ status.isInterrupt = true := by
  cases hPerform : h.perform s (o.launch task action) with
  | mk answer t =>
    cases answer with
    | error error =>
      rw [performAction_of_error hPerform] at hResult
      cases hResult
    | ok p =>
      rw [(performAction_of_ok hPerform).1] at hNot
      have hExit : h.exit? s (o.launch task action) = p.ending.status? := by
        rw [Host.exit?, hPerform]
        rfl
      simp only [Host.performAction, hPerform] at hResult
      cases hEnding : p.ending with
      | overran limited => simp [hEnding] at hResult
      | lost error late => simp [hEnding] at hResult
      | cancelled =>
        -- it is ended so only after the cancellation has arrived
        have hArrived := hLatched.heeded _ _ _ _ hPerform hEnding
        rw [hNot] at hArrived
        cases hArrived
      | byItself status =>
        rw [hEnding] at hExit
        simp only [hEnding, hNot, Bool.false_or] at hResult
        cases hTest : !status.isSuccess && status.isInterrupt with
        | false => simp [hTest] at hResult
        | true =>
          simp only [hTest, if_true, Except.error.injEq, Fault.cancelled.injEq] at hResult
          rw [Bool.and_eq_true] at hTest
          exact ⟨hResult.symm, status, hExit, hTest.2⟩

namespace Turn

variable {t : Turn h r o} {name : Option String}

/-- **A cancellation that has not arrived** is told only for a process that was
interrupted from the keyboard. -/
theorem isInterrupt_of_cancelled (hLatched : h.Latched)
    (hResult : t.attempt.result = .error (.cancelled name))
    (hNot : h.cancelled t.attempt.world = false) :
    name = some t.name ∧ ∃ status, t.exit? = some status ∧ status.isInterrupt = true := by
  cases t.fate with
  | cancelled hCancelled hAttempt _ =>
    rw [hAttempt] at hNot
    rw [hNot] at hCancelled
    cases hCancelled
  | refused fault hRefusal hAttempt _ =>
    obtain ⟨error, operation, path, rfl⟩ := hRefusal
    simp [hAttempt] at hResult
  | skipped _ hAttempt _ => simp [hAttempt] at hResult
  | aggregate _ _ hAttempt _ => simp [hAttempt] at hResult
  | executed _ _ _ _ _ _ _ _ hEnded => simp [hEnded] at hResult
  | failed _ _ _ _ hLaunch _ _ _ _ =>
    obtain ⟨action, -, hSame, hWorld, -, -, hComesTo⟩ := t.attempt_of_launch hLaunch
    rw [hSame] at hLaunch
    have hPerformed : (h.performAction o t.task action t.ready).result =
        .error (.cancelled name) := by
      rw [hComesTo] at hResult
      cases hInner : (h.performAction o t.task action t.ready).result with
      | error fault => simpa [hInner, bind, Except.bind] using hResult
      | ok finished =>
        -- a process that finished is told as executed or as failed
        cases hSuccess : finished.status.isSuccess <;>
          simp [hInner, hSuccess, bind, Except.bind, pure, Except.pure, throw, throwThe,
            MonadExceptOf.throw] at hResult
    rw [hWorld] at hNot
    rw [exit?, hLaunch, Option.bind_some]
    exact performAction_cancelled hLatched hPerformed hNot

/-- Whatever a turn failed with, it stops the run as a cancellation once one has
arrived. -/
theorem fault?_of_cancelled {cause : Fault} (hResult : t.attempt.result = .error cause)
    (hCancelled : h.cancelled (h.elapse t.attempt.world) = true) :
    ∃ name, t.fault? = some (.cancelled name) := by
  rw [fault?, hResult, hCancelled]
  cases cause with
  | cancelled name => exact ⟨name, rfl⟩
  | _ => exact ⟨some t.task.name, rfl⟩

theorem result_of_fault? {fault : Fault} (hFault : t.fault? = some fault)
    (hNot : h.cancelled (h.elapse t.attempt.world) = false) : t.attempt.result = .error fault := by
  obtain ⟨cause, hCause, hTold⟩ := fault?_eq_some_iff.mp hFault
  rw [hNot] at hTold
  obtain rfl : cause = fault := hTold
  exact hCause

/-- So a fault that stops a run and is no cancellation came before one had
arrived. -/
theorem cause_of_fault? {fault : Fault} (hFault : t.fault? = some fault)
    (hOther : fault.isCancelled = false) :
    t.attempt.result = .error fault ∧ h.cancelled (h.elapse t.attempt.world) = false := by
  cases hCancelled : h.cancelled (h.elapse t.attempt.world) with
  | false => exact ⟨result_of_fault? hFault hCancelled, rfl⟩
  | true =>
    obtain ⟨cause, hCause, -⟩ := fault?_eq_some_iff.mp hFault
    obtain ⟨name, hName⟩ := fault?_of_cancelled hCause hCancelled
    rw [hFault] at hName
    obtain rfl := Option.some.inj hName
    cases hOther

end Turn

-- ---------------------------------------------------------------------------
-- Planning
-- ---------------------------------------------------------------------------

theorem Registry.not_cancelled_of_plan {target : String} {fault : Fault}
    (hPlan : r.plan target = .error fault) : fault.isCancelled = false := by
  have hOther := r.noProcess_plan target fault hPlan
  cases fault with
  | cancelled name => cases hOther
  | _ => rfl

-- ---------------------------------------------------------------------------
-- The machine for rehearsals
-- ---------------------------------------------------------------------------

namespace Actor

theorem clock_le_follow (a : Actor) (place : List String) (instruction : Instruction) :
    a.clock ≤ (a.follow place instruction).clock := by
  have hChanging : ∀ change, (a.changing change).clock = a.clock := by
    intro change
    unfold changing
    cases change a.files <;> rfl
  cases instruction with
  | write stream bytes => cases stream <;> exact Nat.le_refl _
  | log line => exact Nat.le_of_eq (hChanging _).symm
  | touch path seconds => exact Nat.le_of_eq (hChanging _).symm
  | remove path => exact Nat.le_of_eq (hChanging _).symm
  | sleep ms => exact Nat.le_add_right _ _
  | exit | ignore | die | nothing => exact Nat.le_refl _

theorem clock_le_of_endedWithin {a : Actor} {summons : Option Summons} {ms time signal : Nat}
    (hEnded : a.endedWithin summons ms = some (time, signal)) : a.clock ≤ time := by
  unfold endedWithin at hEnded
  split at hEnded
  · split at hEnded
    · obtain ⟨rfl, -⟩ := Prod.mk.inj (Option.some.inj hEnded)
      exact Nat.le_max_right _ _
    · cases hEnded
  · cases hEnded

theorem clock_le_play (place : List String) (summons : Option Summons)
    (instructions : List Instruction) (a : Actor) :
    a.clock ≤ (play place summons instructions a).1.clock := by
  fun_induction play place summons instructions a with
  | case1 => exact Nat.le_refl _
  | case2 _ _ _ _ _ hEnded => exact clock_le_of_endedWithin hEnded
  | case3 => exact Nat.le_refl _
  | case4 => exact Nat.le_refl _
  | case5 _ _ _ _ _ _ ih => exact Nat.le_trans (clock_le_follow _ _ _) ih

end Actor

namespace Machine

theorem cancelAt_of_summonsOf {m : Machine} {limit : Option Nat} {time : Nat}
    (hSummons : m.summonsOf limit = some (time, .cancelled)) : m.cancelAt = some time := by
  unfold summonsOf overrunAt at hSummons
  cases hCancel : m.cancelAt with
  | none => cases limit <;> simp [hCancel] at hSummons
  | some at' =>
    cases limit with
    | none => simpa [hCancel] using hSummons
    | some ms =>
      simp only [hCancel, Option.map_some, Option.some.injEq] at hSummons
      split at hSummons
      · rw [(Prod.mk.inj hSummons).1]
      · cases hSummons

theorem isCancelled_iff {m : Machine} :
    m.isCancelled = true ↔ ∃ time, m.cancelAt = some time ∧ time ≤ m.clock := by
  unfold isCancelled
  cases m.cancelAt <;> simp

theorem perform_spec (m : Machine) (launch : Launch) :
    (m.perform launch).2.cancelAt = m.cancelAt ∧ m.clock ≤ (m.perform launch).2.clock ∧
      ∀ p t, m.perform launch = (.ok p, t) → p.ending = .cancelled → t.isCancelled = true := by
  cases hAccept : m.accept launch with
  | error error => simp [perform, hAccept]
  | ok place =>
    have hClock := Actor.clock_le_play place
      ((m.summonsOf launch.limit).map fun s => ⟨s.1, launch.grace⟩)
      (launch.args.map Instruction.ofArgument)
      ⟨m.files, instantAfter (m.started + 1), m.clock, false, [], []⟩
    simp only [perform, hAccept]
    generalize Actor.play place _ _ _ = played at hClock ⊢
    refine ⟨trivial, hClock, fun p t hPerform hEnding => ?_⟩
    obtain ⟨hAnswer, rfl⟩ := Prod.mk.inj hPerform
    obtain rfl := Except.ok.inj hAnswer
    -- only a summons that came in time ends a process so
    cases hSummons : m.summonsOf launch.limit with
    | none => simp [hSummons] at hEnding
    | some summons =>
      obtain ⟨time, reason⟩ := summons
      simp only [hSummons] at hEnding
      split at hEnding
      case isTrue hInTime =>
        subst hEnding
        have hCancel : m.cancelAt = some time := cancelAt_of_summonsOf hSummons
        exact isCancelled_iff.mpr ⟨time, hCancel, hInTime⟩
      case isFalse => cases hEnding

theorem latched : host.Latched where
  elapsed _ hCancelled := hCancelled
  performed m launch hCancelled := by
    obtain ⟨hSame, hLater, -⟩ := m.perform_spec launch
    obtain ⟨time, hTime, hArrived⟩ := isCancelled_iff.mp hCancelled
    exact isCancelled_iff.mpr ⟨time, hSame.trans hTime, Nat.le_trans hArrived hLater⟩
  heeded m launch p t hPerform hEnding := (m.perform_spec launch).2.2 p t hPerform hEnding

end Machine

namespace Napping

/-- A task whose process is interrupted as soon as it begins. -/
def nap : Task := ⟨"nap", .phony, [], some ⟨"act", ["kill:INT"]⟩, none, none, none⟩

def registry : Registry := .ofDistinct [nap] (by simp)

def options : RunOptions := .plain ⟨"/"⟩

def machine (cancelAt : Option Nat) : Machine := ⟨.empty 0, [], 0, 0, cancelAt⟩

theorem accept_nap {launch : Launch} (hLaunch : launch = options.launch nap ⟨"act", ["kill:INT"]⟩) :
    (machine none).accept launch = .ok [] := by
  have hRoute : (⟨"/"⟩ : Path).route = .ok ⟨true, [], true⟩ := by cbv
  have hDirectory : (machine none).files.findDirectory (machine none).home ⟨"/"⟩ = .ok [] := by
    simp only [Files.findDirectory, Files.find, hRoute]
    rfl
  subst hLaunch
  simp [Machine.accept, RunOptions.launch, RunOptions.directoryOf, options, nap, RunOptions.plain,
    hDirectory]
  rfl

theorem perform_nap :
    Machine.host.perform (machine none) (options.launch nap ⟨"act", ["kill:INT"]⟩) =
      (.ok ⟨.byItself (.killed 2), [], [], fun _ => 0⟩, { machine none with started := 1 }) := by
  have hScript : (options.launch nap ⟨"act", ["kill:INT"]⟩).args.map Instruction.ofArgument =
      [.die 2] := by cbv
  have hPerform : Machine.host.perform (machine none) = (machine none).perform := rfl
  simp only [hPerform, Machine.perform, accept_nap rfl, hScript]
  rfl

end Napping

-- ---------------------------------------------------------------------------
-- Runs that come to a cancellation
-- ---------------------------------------------------------------------------

namespace Point

variable {target : String} {plan : List Task} {s : σ} {p : Point h r o} {t : Turn h r o}

theorem isLast_of_error (hTurn : p.turn? = some t) {cause : Fault}
    (hResult : t.attempt.result = .error cause) : p.IsLast := by
  have hFault : p.fault?.isSome = true := by
    rw [fault?_of_turn? hTurn, Turn.fault?, hResult]
    rfl
  exact .inr hFault

/-- A turn before which a cancellation arrives starts nothing, and the run goes
no further. -/
theorem run_of_ready (hPlan : r.plan target = .ok plan) (hReached : p.Reached plan s)
    (hTurn : p.turn? = some t) (hReady : h.cancelled t.ready = true) :
    (h.run r o target s).result = .error (.cancelled none) ∧
      h.launches r o target s = p.done.filterMap Turn.launch? := by
  have hResult : t.attempt.result = .error (.cancelled none) := by
    rw [t.attempt_eq, hReady]
    rfl
  have hFault : p.fault? = some (.cancelled none) := by
    rw [fault?_of_turn? hTurn, Turn.fault?, hResult]
    simp [Fault.orCancelled, Fault.isCancelled]
  have hLaunch : t.launch? = none := by
    rw [Turn.launch?, hReady]
    rfl
  obtain ⟨-, -, -, hRun, hLaunches, -⟩ := run_of_last hPlan hReached (isLast_of_error hTurn hResult)
  constructor
  · rw [hRun, hFault]
    rfl
  · rw [hLaunches, turns_of_turn? hTurn, List.filterMap_append, List.filterMap_cons_none hLaunch,
      List.filterMap_nil, List.append_nil]

/-- A run that fails after a cancellation has arrived comes to one, and tells
it. -/
theorem run_of_cancelled (hPlan : r.plan target = .ok plan) (hReached : p.Reached plan s)
    (hTurn : p.turn? = some t) {cause : Fault} (hResult : t.attempt.result = .error cause)
    (hCancelled : h.cancelled (h.elapse t.attempt.world) = true) :
    ∃ name, (h.run r o target s).result = .error (.cancelled name) ∧
      (h.trace r o target s).filter Event.isTerminal = [.run (.cancelled target name)] := by
  have hLast := isLast_of_error hTurn hResult
  obtain ⟨name, hFault⟩ := Turn.fault?_of_cancelled hResult hCancelled
  rw [← fault?_of_turn? hTurn] at hFault
  obtain ⟨-, -, -, hRun, -, -⟩ := run_of_last hPlan hReached hLast
  refine ⟨name, ?_, ?_⟩
  · rw [hRun, hFault]
    rfl
  · rw [filter_isTerminal_trace hPlan hReached hLast, hFault]
    rfl

theorem Reached.cancelled_run (hLatched : h.Latched) (hPlan : r.plan target = .ok plan)
    (hReached : p.Reached plan s) (hCancelled : h.cancelled p.world = true) :
    h.cancelled (h.run r o target s).world = true := by
  simp only [Host.run, hPlan, hReached.walk_eq]
  exact hLatched.preserves.walk hCancelled

end Point

/-- Where no cancellation has arrived by the end, only an interruption from the
keyboard is told as one. -/
theorem isInterrupt_of_run (hLatched : h.Latched) {target : String} {s : σ}
    (hNot : h.cancelled (h.run r o target s).world = false) {name : Option String}
    (hResult : (h.run r o target s).result = .error (.cancelled name)) :
    ∃ plan, r.plan target = .ok plan ∧ ∃ (p : Point h r o) (t : Turn h r o),
      p.Reached plan s ∧ p.turn? = some t ∧ name = some t.name ∧
      ∃ status, t.exit? = some status ∧ status.isInterrupt = true := by
  cases hPlan : r.plan target with
  | error fault =>
    -- planning is never cancelled
    rw [(run_of_fault hPlan s).1] at hResult
    obtain rfl := Except.error.inj hResult
    cases Registry.not_cancelled_of_plan hPlan
  | ok plan =>
    obtain ⟨p, t, hReached, hTurn, hFault, hWorld⟩ := exists_turn_of_error hPlan hResult
    rw [hWorld] at hNot
    have hEarlier : h.cancelled t.attempt.world = false := by
      rw [← Bool.not_eq_true]
      intro hCancelled
      rw [hLatched.elapsed _ hCancelled] at hNot
      cases hNot
    have hCause := Turn.result_of_fault? hFault hNot
    obtain ⟨hName, hInterrupt⟩ := Turn.isInterrupt_of_cancelled hLatched hCause hEarlier
    exact ⟨plan, rfl, p, t, hReached, hTurn, hName, hInterrupt⟩

/-- A fault that a run comes to and that is no cancellation is that of the
planning, or was handled before a cancellation had arrived. -/
theorem not_cancelled_of_run {target : String} {s : σ} {fault : Fault}
    (hResult : (h.run r o target s).result = .error fault) (hOther : fault.isCancelled = false) :
    r.plan target = .error fault ∨
      ∃ plan, r.plan target = .ok plan ∧ ∃ (p : Point h r o) (t : Turn h r o),
        p.Reached plan s ∧ p.turn? = some t ∧ t.attempt.result = .error fault ∧
        h.cancelled (h.elapse t.attempt.world) = false := by
  cases hPlan : r.plan target with
  | error planning =>
    rw [(run_of_fault hPlan s).1] at hResult
    obtain rfl := Except.error.inj hResult
    exact .inl rfl
  | ok plan =>
    obtain ⟨p, t, hReached, hTurn, hFault, -⟩ := exists_turn_of_error hPlan hResult
    obtain ⟨hCause, hNot⟩ := Turn.cause_of_fault? hFault hOther
    exact .inr ⟨plan, rfl, p, t, hReached, hTurn, hCause, hNot⟩

theorem Workspace.exitCode_of_cancelled {w : Workspace σ} {c : CommandLine} {s : σ}
    {failure : Failure} (hFails : (w.execute c s).result = .error failure)
    (hCancelled : w.cancelled (w.respond c s).world = true) :
    (w.respond c s).exitCode = ExitCode.interrupted := by
  have hLate : w.cancelled (w.elapse (w.execute c s).world) = true := hCancelled
  simp only [Workspace.respond, hFails, hLate]
  cases failure <;> rfl

namespace Napping

def napping (cancelAt : Option Nat) : Turn Machine.host registry options :=
  ⟨nap, [], machine cancelAt⟩

theorem plan_nap : registry.plan "nap" = .ok [nap] := by cbv

theorem result_napping : (napping none).attempt.result = .error (.cancelled (some "nap")) ∧
    (napping none).attempt.world = { machine none with started := 1 } := by
  have hCheck : (napping none).view.check nap = .ok .phony := rfl
  have hAction : (napping none).task.action = some ⟨"act", ["kill:INT"]⟩ := rfl
  obtain ⟨-, hWorld, -, -, hResult⟩ :=
    (napping none).attempt_of_action rfl hCheck (by simp) hAction
  have hPerform : Machine.host.perform (napping none).ready
      (options.launch (napping none).task ⟨"act", ["kill:INT"]⟩) = _ := perform_nap
  constructor
  · rw [hResult]
    simp only [Host.performAction, hPerform]
    rfl
  · rw [hWorld, (performAction_of_ok hPerform).1]

theorem run_nap :
    (Machine.host.run registry options "nap" (machine none)).result =
        .error (.cancelled (some "nap")) ∧
      Machine.host.cancelled (Machine.host.run registry options "nap" (machine none)).world =
        false := by
  have hStart : Point.Reached [nap] (machine none)
      (⟨[], [], [nap], machine none⟩ : Point Machine.host registry options) := .start
  obtain ⟨hResult, hAttempt⟩ := result_napping
  obtain ⟨-, -, hWorld, hRun, -⟩ :=
    run_of_last plan_nap hStart (Point.isLast_of_error (t := napping none) rfl hResult)
  rw [hWorld, hRun, Point.fault?_of_turn? (t := napping none) rfl,
    Point.final_of_turn? (t := napping none) rfl, Turn.fault?, hResult, hAttempt]
  exact ⟨rfl, rfl⟩

end Napping

/--
**A cancellation prevails.** On a host on which it stays, at whatever moment it
arrives:

* if a run comes to a task after it has arrived, it starts nothing for that task
  or a later one, and comes to a cancellation;
* if a task does not end well and it has arrived by the time this is handled,
  the run comes to a cancellation, whatever the failure was, and this is the
  only end that it tells;
* if it has not arrived by the end, it never had, and the run comes to a
  cancellation only if a process was interrupted from the keyboard;
* so if a run fails otherwise, it had no plan, or the cancellation had not
  arrived when the failure was handled;
* a command that fails after it has arrived exits with the code of a
  cancellation.
-/
theorem cancellation_prevails (hLatched : h.Latched) (r : Registry) (o : RunOptions)
    (target : String) (s : σ) :
    (∀ plan, r.plan target = .ok plan → ∀ (p : Point h r o) (t : Turn h r o),
      p.Reached plan s → p.turn? = some t →
      (h.cancelled t.world = true ∨ h.cancelled t.ready = true →
        (h.run r o target s).result = .error (.cancelled none) ∧
        h.launches r o target s = p.done.filterMap Turn.launch?) ∧
      ∀ cause, t.attempt.result = .error cause →
        h.cancelled (h.elapse t.attempt.world) = true →
        ∃ name, (h.run r o target s).result = .error (.cancelled name) ∧
          (h.trace r o target s).filter Event.isTerminal = [.run (.cancelled target name)]) ∧
    (h.cancelled (h.run r o target s).world = false →
      (∀ plan, r.plan target = .ok plan → ∀ p : Point h r o, p.Reached plan s →
        h.cancelled p.world = false) ∧
      ∀ name, (h.run r o target s).result = .error (.cancelled name) →
        ∃ plan, r.plan target = .ok plan ∧ ∃ (p : Point h r o) (t : Turn h r o),
          p.Reached plan s ∧ p.turn? = some t ∧ name = some t.name ∧
          ∃ status, t.exit? = some status ∧ status.isInterrupt = true) ∧
    (∀ fault, (h.run r o target s).result = .error fault → fault.isCancelled = false →
      r.plan target = .error fault ∨
      ∃ plan, r.plan target = .ok plan ∧ ∃ (p : Point h r o) (t : Turn h r o),
        p.Reached plan s ∧ p.turn? = some t ∧ t.attempt.result = .error fault ∧
        h.cancelled (h.elapse t.attempt.world) = false) ∧
    ∀ (w : Workspace σ) (c : CommandLine) (u : σ) (failure : Failure),
      (w.execute c u).result = .error failure → w.cancelled (w.respond c u).world = true →
      (w.respond c u).exitCode = ExitCode.interrupted := by
  refine ⟨?_, ?_, ?_, ?_⟩
  · intro plan hPlan p t hReached hTurn
    refine ⟨fun hCancelled => ?_, fun cause => Point.run_of_cancelled hPlan hReached hTurn⟩
    refine Point.run_of_ready hPlan hReached hTurn ?_
    rcases hCancelled with hBefore | hReady
    · exact hLatched.elapsed t.world hBefore
    · exact hReady
  · intro hNot
    refine ⟨fun plan hPlan p hReached => ?_, fun name => isInterrupt_of_run hLatched hNot⟩
    rw [← Bool.not_eq_true]
    intro hCancelled
    rw [hReached.cancelled_run hLatched hPlan hCancelled] at hNot
    cases hNot
  · exact fun fault => not_cancelled_of_run
  · exact fun w c u failure => Workspace.exitCode_of_cancelled

section Napping

open Napping

/-- An interruption from the keyboard is told where nothing else was cancelled;
a cancellation that is there from the beginning leaves nothing to start. -/
theorem cancellation_prevails_nap :
    (∃ plan, registry.plan "nap" = .ok plan ∧
      ∃ (p : Point Machine.host registry options) (t : Turn Machine.host registry options),
        p.Reached plan (machine none) ∧ p.turn? = some t ∧ some "nap" = some t.name ∧
        ∃ status, t.exit? = some status ∧ status.isInterrupt = true) ∧
    (Machine.host.run registry options "nap" (machine (some 0))).result = .error (.cancelled none) ∧
    Machine.host.launches registry options "nap" (machine (some 0)) = [] := by
  constructor
  · obtain ⟨-, hUnset, -⟩ :=
      cancellation_prevails Machine.latched registry options "nap" (machine none)
    exact (hUnset run_nap.2).2 (some "nap") run_nap.1
  · obtain ⟨hPrevails, -⟩ :=
      cancellation_prevails Machine.latched registry options "nap" (machine (some 0))
    exact (hPrevails [nap] plan_nap ⟨[], [], [nap], machine (some 0)⟩ (napping (some 0)) .start
      rfl).1 (.inl rfl)

/-- **Planning comes first.** Where a cancellation is there from the beginning, a
run of a task that does not exist still tells that. -/
theorem unknownTask_of_cancelled :
    Machine.host.Latched ∧ Machine.host.cancelled (machine (some 0)) = true ∧
      (Machine.host.run .empty options "x" (machine (some 0))).result =
        .error (.unknownTask "x" none) ∧
      (Fault.unknownTask "x" none).isCancelled = false ∧
      Machine.host.trace .empty options "x" (machine (some 0)) = [] ∧
      Machine.host.cancelled (Machine.host.run .empty options "x" (machine (some 0))).world =
        true :=
  ⟨Machine.latched, rfl, rfl, rfl, rfl, rfl⟩

end Napping

end TaskMill
