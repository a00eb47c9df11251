import TaskMill.Proofs.Course
/-!
# TaskMill — runs fail fast

A run that has a plan takes its tasks from the front, one turn each, and a turn
that does not end well is the last one. As the names of a plan are founded, each
turn finds that everything its task needs has ended well.

What a run that succeeds reports has one outcome for each task of the plan, and
these fall into three kinds (`Outcome.perm_kinds`).

## Results

* `Point.before_turn` — what holds of the turns before another one.
* `report_of_rest_eq_nil` — what a run reports that got to its end.
* `run_failFast` — what every run does, whatever the host.
-/

namespace TaskMill

open Relation (TransGen)

variable {σ : Type} {h : Host σ} {r : Registry} {o : RunOptions}

-- ---------------------------------------------------------------------------
-- Three kinds of outcomes
-- ---------------------------------------------------------------------------

/-- Whether a task was passed over for want of an action. -/
def Outcome.isAggregate : Outcome → Bool
  | .aggregate _ => true
  | _ => false

/-- The tasks that were passed over, in order. -/
def Report.aggregates (report : Report) : List String :=
  (report.outcomes.filter Outcome.isAggregate).map Outcome.name

/-- Each outcome is of exactly one kind. -/
theorem Outcome.perm_kinds (outcomes : List Outcome) :
    (outcomes.filter Outcome.isExecuted ++ outcomes.filter Outcome.isSkipped ++
      outcomes.filter Outcome.isAggregate).Perm outcomes := by
  induction outcomes with
  | nil => exact .nil
  | cons outcome rest ih =>
    rw [List.append_assoc] at ih ⊢
    cases outcome with
    | executed name finished => exact ih.cons _
    | skipped name => exact List.perm_middle.trans (ih.cons _)
    | aggregate name =>
      rw [← List.append_assoc] at ih ⊢
      exact List.perm_middle.trans (ih.cons _)

-- ---------------------------------------------------------------------------
-- Turns of a run
-- ---------------------------------------------------------------------------

namespace Turn

theorem filterMap_outcome? {ts : List (Turn h r o)}
    (hEnded : ∀ t ∈ ts, ∃ outcome, t.attempt.result = .ok outcome) :
    (ts.filterMap Turn.outcome?).map Outcome.name = ts.map Turn.name := by
  induction ts with
  | nil => rfl
  | cons t rest ih =>
    obtain ⟨hFirst, hRest⟩ := List.forall_mem_cons.mp hEnded
    obtain ⟨outcome, hResult⟩ := hFirst
    have hOutcome : t.outcome? = some outcome := by rw [Turn.outcome?, hResult]; rfl
    rw [List.filterMap_cons_some hOutcome, List.map_cons, List.map_cons, ih hRest,
      outcome_name hResult]

/-- A fault told as a failed task is that of the turn's own process. -/
theorem exit?_of_taskFailed {t : Turn h r o} {name : String} {code : Option Int}
    {output : Option String} (hFault : t.fault? = some (.taskFailed name code output)) :
    name = t.name ∧
      ∃ status, t.exit? = some status ∧ status.isSuccess = false ∧ status.code? = code := by
  obtain ⟨cause, hResult, hTold⟩ := fault?_eq_some_iff.mp hFault
  obtain ⟨hExit, hOwn⟩ := exit?_of_error hResult
  have hCause : cause = .taskFailed name code output := by
    unfold Fault.orCancelled at hTold
    split at hTold
    · cases hTold
    · exact hTold
  obtain ⟨hName, status, hStatus, hCode⟩ := hOwn name code output hCause
  exact ⟨hName, status, hStatus, hExit status hStatus, hCode⟩

end Turn

namespace Point

variable {plan : List Task} {s : σ} {p : Point h r o}

/-- **Before a turn**, every turn has ended well, and everything that the task
needs has had its turn. -/
theorem before_turn {target : String} (hPlan : r.IsPlan target plan)
    (hReached : p.Reached plan s) {before : List (Turn h r o)} {t : Turn h r o}
    {after : List (Turn h r o)} (hTurns : p.turns = before ++ t :: after) :
    (∀ u ∈ before, u.EndedWell) ∧ ∀ dep, r.Needs t.name dep → ∃ u ∈ before, u.name = dep := by
  constructor
  · -- only the turn at hand is not done, and nothing comes after it
    have hDone : ∀ u ∈ before, u ∈ p.done := by
      intro u hu
      rw [turns] at hTurns
      cases hTurn : p.turn? with
      | none =>
        rw [hTurn, Option.toList_none, List.append_nil] at hTurns
        simp [hTurns, hu]
      | some v =>
        rw [hTurn, Option.toList_some] at hTurns
        -- the turn in question is the one at hand, or it is done itself
        rcases List.eq_nil_or_concat after with rfl | ⟨front, last, rfl⟩
        · rw [(List.append_inj' hTurns rfl).1]
          exact hu
        · have hEq : p.done ++ [v] = (before ++ t :: front) ++ [last] := by simpa using hTurns
          rw [(List.append_inj' hEq rfl).1]
          simp [hu]
    intro u hu
    exact Turn.endedWell_iff.mpr (hReached.ended u (hDone u hu))
  · intro dep hNeeds
    obtain ⟨later, hLater⟩ := hReached.turns_isPrefix
    have hNames : plan.map Task.name =
        before.map Turn.name ++ t.name :: (after.map Turn.name ++ later.map Task.name) := by
      rw [← hLater, List.map_append, Turn.map_name_task, hTurns]
      simp
    exact List.mem_map.mp (hPlan.founded.mem_before hNeeds hNames)

end Point

-- ---------------------------------------------------------------------------
-- What every run does
-- ---------------------------------------------------------------------------

/-- What a run reports that got to the end of its plan. -/
theorem report_of_rest_eq_nil {plan : List Task} {s : σ} {p : Point h r o}
    (hReached : p.Reached plan s) (hRest : p.rest = []) {report : Report}
    (hOutcomes : report.outcomes = p.turns.filterMap Turn.outcome?) :
    report.outcomes.map Outcome.name = plan.map Task.name ∧
      report.executed.Sublist (plan.map Task.name) ∧ report.skipped.Sublist (plan.map Task.name) ∧
      report.aggregates.Sublist (plan.map Task.name) ∧
      (report.executed ++ report.skipped ++ report.aggregates).Perm (plan.map Task.name) := by
  have hNames : report.outcomes.map Outcome.name = plan.map Task.name := by
    rw [hOutcomes, Point.turns_eq_done hRest, Turn.filterMap_outcome? hReached.ended,
      ← hReached.names_eq, hRest, List.map_nil, List.append_nil]
  refine ⟨hNames, ?_⟩
  -- what a report tells of each kind is cut out of its outcomes
  rw [← hNames]
  refine ⟨List.filter_sublist.map _, List.filter_sublist.map _, List.filter_sublist.map _, ?_⟩
  rw [Report.executed, Report.skipped, Report.aggregates, ← List.map_append, ← List.map_append]
  exact (Outcome.perm_kinds _).map _

/--
**Runs fail fast.** Without a plan, a run comes to the fault of the planning and
starts nothing. With one, whatever the host does:

* the run takes turns for the first tasks of the plan, in order and none twice,
  and starts what these turns start, in order;
* before each turn, every turn has ended as executed with success, as skipped or
  as an aggregate, and all that the task needs has had its turn;
* a run that succeeds has an outcome for each task of the plan, in order, of one
  of three kinds;
* a run that fails does so at its last turn; a failed task that it tells is the
  first whose process exited without success, and is told with its status.
-/
theorem run_failFast (h : Host σ) (r : Registry) (o : RunOptions) (target : String) (s : σ) :
    match r.plan target with
    | .error fault =>
      (h.run r o target s).result = .error fault ∧ h.launches r o target s = []
    | .ok plan => ∃ p : Point h r o, p.Reached plan s ∧ p.IsLast ∧
      p.turns.map Turn.task <+: plan ∧ (p.turns.map Turn.name).Nodup ∧
      h.launches r o target s = p.turns.filterMap Turn.launch? ∧
      (∀ before t after, p.turns = before ++ t :: after →
        (∀ u ∈ before, u.EndedWell) ∧
          ∀ dep, r.Needs t.name dep → ∃ u ∈ before, u.name = dep) ∧
      match (h.run r o target s).result with
      | .ok report =>
        p.turns.map Turn.task = plan ∧ report.outcomes = p.turns.filterMap Turn.outcome? ∧
          report.outcomes.map Outcome.name = plan.map Task.name ∧
          report.executed.Sublist (plan.map Task.name) ∧
          report.skipped.Sublist (plan.map Task.name) ∧
          report.aggregates.Sublist (plan.map Task.name) ∧
          (report.executed ++ report.skipped ++ report.aggregates).Perm (plan.map Task.name)
      | .error fault => ∃ before t, p.turns = before ++ [t] ∧ ¬ t.EndedWell ∧
          ∀ name code output, fault = .taskFailed name code output → name = t.name ∧
            (∃ status, t.exit? = some status ∧ status.isSuccess = false ∧ status.code? = code) ∧
            ∀ u ∈ before, ∀ status, u.exit? = some status → status.isSuccess = true := by
  cases hPlan : r.plan target with
  | error fault => exact run_of_fault hPlan s
  | ok plan =>
    have hIsPlan := Registry.isPlan_of_plan hPlan
    obtain ⟨p, hReached, hLast, -, hResult, hLaunches, -⟩ := run_of_plan (h := h) (o := o) hPlan s
    refine ⟨p, hReached, hLast, hReached.turns_isPrefix, ?_, hLaunches,
      fun before t after => Point.before_turn hIsPlan hReached, ?_⟩
    · have hSub := hReached.turns_isPrefix.sublist.map Task.name
      rw [Turn.map_name_task] at hSub
      exact hIsPlan.once.sublist hSub
    · rw [hResult]
      cases hFault : p.fault? with
      | none =>
        have hRest := hLast.rest_eq_nil hFault
        refine ⟨?_, rfl, report_of_rest_eq_nil hReached hRest rfl⟩
        rw [Point.turns_eq_done hRest, ← hReached.plan_eq, hRest, List.append_nil]
      | some fault =>
        obtain ⟨t, hTurns, hStop⟩ := Point.last_of_fault hFault
        refine ⟨p.done, t, hTurns, Turn.not_endedWell_of_fault? hStop, ?_⟩
        rintro name code output rfl
        obtain ⟨hName, hStatus⟩ := Turn.exit?_of_taskFailed hStop
        refine ⟨hName, hStatus, fun u hu status hExit => ?_⟩
        exact Turn.isSuccess_of_endedWell
          (Turn.endedWell_iff.mpr (hReached.ended u hu)) hExit

end TaskMill
