import TaskMill.Proofs.Turn
/-!
# TaskMill — the course of a run

A run takes one turn after the other and stops at the first that does not end
well. Between two turns it is at a **point**: some turns are done, some tasks
are left. The points that a run passes are those **reached** from its start, one
ended turn after the other. It passes each of them (`Reached.walk_eq`), and what
it lets out, what it reports and what stops it can be read off its last point
(`exists_last`), of which there is one (`Reached.eq_of_isLast`).

What neither time nor processes change is kept by a run (`Host.Preserves.run`).

Which processes a run starts is told by a host that keeps a **log** and does
otherwise as it did before (`Host.logging`): what stands in the log is what was
started, whatever the host.
-/

namespace TaskMill

variable {σ : Type} {h : Host σ} {r : Registry} {o : RunOptions}

-- ---------------------------------------------------------------------------
-- Points
-- ---------------------------------------------------------------------------

/-- A point of a run: the turns done, the tasks executed so far, the tasks that
are left, and the state of the host. -/
structure Point (h : Host σ) (r : Registry) (o : RunOptions) where
  done : List (Turn h r o)
  executed : List String
  rest : List Task
  world : σ

namespace Point

/-- The points of a run of `plan` that begins in `s`. -/
inductive Reached (plan : List Task) (s : σ) : Point h r o → Prop
  | start : Reached plan s ⟨[], [], plan, s⟩
  | step {done : List (Turn h r o)} {t : Turn h r o} {rest : List Task} {outcome : Outcome}
      (hReached : Reached plan s ⟨done, t.executed, t.task :: rest, t.world⟩)
      (hResult : t.attempt.result = .ok outcome) :
      Reached plan s ⟨done ++ [t], outcome.noted t.task t.executed, rest, t.attempt.world⟩

/-- The turn at hand. -/
def turn? (p : Point h r o) : Option (Turn h r o) :=
  p.rest.head?.map fun task => ⟨task, p.executed, p.world⟩

/-- The turns done and the one at hand. -/
def turns (p : Point h r o) : List (Turn h r o) := p.done ++ p.turn?.toList

/-- What stops the run at the turn at hand, if it does not end well. -/
def fault? (p : Point h r o) : Option Fault := p.turn?.bind Turn.fault?

/-- The run goes no further: nothing is left, or the turn at hand does not end
well. -/
def IsLast (p : Point h r o) : Prop := p.rest = [] ∨ p.fault?.isSome = true

/-- The state that the host is left in if the run goes no further. -/
def final (p : Point h r o) : σ :=
  p.turn?.elim p.world fun t => h.elapse t.attempt.world

/-- The turn at hand is that of the first task that is left. -/
theorem eq_of_turn? {p : Point h r o} {t : Turn h r o} (hTurn : p.turn? = some t) :
    ∃ rest, p = ⟨p.done, t.executed, t.task :: rest, t.world⟩ := by
  obtain ⟨done, executed, left, world⟩ := p
  cases left with
  | nil => cases hTurn
  | cons task rest =>
    obtain rfl := Option.some.inj hTurn
    exact ⟨rest, rfl⟩

section TurnAtHand

variable {p : Point h r o} {t : Turn h r o} (hTurn : p.turn? = some t)

include hTurn

theorem executed_of_turn? : p.executed = t.executed := by
  obtain ⟨rest, hp⟩ := eq_of_turn? hTurn
  exact congrArg executed hp

theorem turns_of_turn? : p.turns = p.done ++ [t] := by
  rw [turns, hTurn]
  rfl

theorem fault?_of_turn? : p.fault? = t.fault? := by
  rw [fault?, hTurn]
  rfl

theorem final_of_turn? : p.final = h.elapse t.attempt.world := by
  rw [final, hTurn]
  rfl

end TurnAtHand

namespace Reached

variable {plan : List Task} {s : σ} {p : Point h r o}

/-- The turns done and the tasks left make up the plan. -/
theorem plan_eq (hReached : p.Reached plan s) : p.done.map Turn.task ++ p.rest = plan := by
  induction hReached with
  | start => simp
  | step _ _ ih => simpa using ih

theorem ended (hReached : p.Reached plan s) :
    ∀ t ∈ p.done, ∃ outcome, t.attempt.result = .ok outcome := by
  induction hReached with
  | start => simp
  | step _ hResult ih => simpa [or_imp, forall_and] using ⟨ih, _, hResult⟩

/-- Before a turn that is done, the run was at the point of that turn. -/
theorem before (hReached : p.Reached plan s) {before : List (Turn h r o)} {t : Turn h r o}
    {after : List (Turn h r o)} (hDone : p.done = before ++ t :: after) :
    Reached plan s ⟨before, t.executed, t.task :: (after.map Turn.task ++ p.rest), t.world⟩ := by
  induction hReached generalizing after with
  | start => simp at hDone
  | @step done u rest outcome hBefore hResult ih =>
    -- the turn is the one that led here, or one of those before
    rcases List.eq_nil_or_concat after with rfl | ⟨front, last, rfl⟩
    · obtain ⟨rfl, hLast⟩ := List.append_inj' hDone rfl
      obtain rfl : u = t := by simpa using hLast
      exact hBefore
    · have hEq : done ++ [u] = (before ++ t :: front) ++ [last] := by simpa using hDone
      obtain ⟨hFront, hLast⟩ := List.append_inj' hEq rfl
      obtain rfl : u = last := by simpa using hLast
      simpa using ih hFront

/-- After so many turns there is one point that a run can be at. -/
theorem unique {q : Point h r o} (hReached : p.Reached plan s) (hOther : q.Reached plan s)
    (hLength : p.done.length = q.done.length) : p = q := by
  induction hReached generalizing q with
  | start =>
    cases hOther with
    | start => rfl
    | step _ _ => simp at hLength
  | @step done t rest outcome _ hResult ih =>
    cases hOther with
    | start => simp at hLength
    | @step done' u rest' outcome' hBefore hResult' =>
      -- both come from one point, so the same turn led to both
      have hSame := ih hBefore (by simpa using hLength)
      obtain ⟨rfl, hExecuted, hRest, hWorld⟩ := Point.mk.inj hSame
      obtain ⟨hTask, rfl⟩ := List.cons.inj hRest
      obtain rfl : t = u := by
        cases t
        cases u
        simp_all
      obtain rfl := Except.ok.inj (hResult.symm.trans hResult')
      rfl

/-- No run goes beyond a last point. -/
theorem length_le_of_isLast {q : Point h r o} (hReached : p.Reached plan s) (hLast : p.IsLast)
    (hOther : q.Reached plan s) : q.done.length ≤ p.done.length := by
  by_contra hBeyond
  have hLess : p.done.length < q.done.length := by omega
  -- beyond it, a turn has ended well that is the one at hand
  obtain ⟨before, t, after, hDone, hLength⟩ :
      ∃ before t after, q.done = before ++ t :: after ∧ before.length = p.done.length := by
    refine ⟨q.done.take p.done.length, q.done[p.done.length], q.done.drop (p.done.length + 1),
      ?_, ?_⟩
    · rw [List.getElem_cons_drop, List.take_append_drop]
    · rw [List.length_take]
      omega
  obtain rfl := hReached.unique (hOther.before hDone) hLength.symm
  obtain ⟨outcome, hResult⟩ := hOther.ended t (by simp [hDone])
  rcases hLast with hRest | hFault
  · cases hRest
  · have hStop : t.fault?.isSome = true := hFault
    rw [Turn.fault?, hResult] at hStop
    cases hStop

/-- A run has one last point. -/
theorem eq_of_isLast {q : Point h r o} (hReached : p.Reached plan s) (hLast : p.IsLast)
    (hOther : q.Reached plan s) (hOtherLast : q.IsLast) : p = q := by
  have hLe := hReached.length_le_of_isLast hLast hOther
  have hGe := hOther.length_le_of_isLast hOtherLast hReached
  exact hReached.unique hOther (by omega)

theorem names_eq (hReached : p.Reached plan s) :
    p.done.map Turn.name ++ p.rest.map Task.name = plan.map Task.name := by
  rw [← hReached.plan_eq, List.map_append, Turn.map_name_task]

section Planned

variable {target : String} (hPlan : r.IsPlan target plan)

include hPlan

theorem names_nodup (hReached : p.Reached plan s) : (p.done.map Turn.name).Nodup := by
  have hOnce := hPlan.once
  rw [← hReached.names_eq] at hOnce
  exact (List.nodup_append.mp hOnce).1

/-- All that a task needs whose turn is done has had its turn. -/
theorem mem_names_of_reaches (hReached : p.Reached plan s) {x : Turn h r o} (hx : x ∈ p.done)
    {n : String} (hReaches : r.Reaches x.name n) : n ∈ p.done.map Turn.name := by
  have hFounded := hPlan.founded
  rw [← hReached.names_eq] at hFounded
  exact hFounded.front.closed (List.mem_map_of_mem hx) hReaches

variable {done : List (Turn h r o)} {t : Turn h r o} {rest : List Task}
  (hReached : Reached plan s ⟨done, t.executed, t.task :: rest, t.world⟩)

include hReached

theorem task_mem : t.task ∈ r.tasks := by
  refine hPlan.registered t.task ?_
  rw [← hReached.plan_eq]
  simp

/-- A task is not given a second turn. -/
theorem name_not_mem : t.name ∉ done.map Turn.name := by
  have hOnce := hPlan.once
  rw [← hReached.names_eq] at hOnce
  intro hMem
  exact List.disjoint_of_nodup_append hOnce hMem List.mem_cons_self

/-- When it is a task's turn, its dependencies have had theirs. -/
theorem mem_names_of_mem_dependsOn {dep : String} (hDep : dep ∈ t.task.dependsOn) :
    dep ∈ done.map Turn.name := by
  refine hPlan.founded (done.map Turn.name) t.name (rest.map Task.name) hReached.names_eq.symm
    dep ?_
  exact ⟨t.task, hReached.task_mem hPlan, rfl, hDep⟩

end Planned

end Reached

end Point

-- ---------------------------------------------------------------------------
-- The log
-- ---------------------------------------------------------------------------

/-- The host that does the same and keeps a log of what it is to perform. -/
def Host.logging (h : Host σ) : Host (σ × List Launch) where
  elapse s := (h.elapse s.1, s.2)
  cancelled s := h.cancelled s.1
  now s := h.now s.1
  modified s := h.modified s.1
  perform s launch :=
    let (answer, t) := h.perform s.1 launch
    (answer, t, s.2 ++ [launch])

/-- What is started in a run, in order. -/
def Host.launches (h : Host σ) (r : Registry) (o : RunOptions) (target : String) (s : σ) :
    List Launch :=
  (h.logging.run r o target (s, [])).world.2

theorem performAction_logging {task : Task} {action : Action} {s : σ} {log : List Launch} :
    h.logging.performAction o task action (s, log) =
      ⟨(h.performAction o task action s).result, (h.performAction o task action s).emissions,
        (h.performAction o task action s).late, (h.performAction o task action s).world,
        log ++ [o.launch task action]⟩ := by
  cases hPerform : h.perform s (o.launch task action) with
  | mk answer t =>
    have hLogging : h.logging.perform (s, log) (o.launch task action) =
        (answer, t, log ++ [o.launch task action]) := by simp [Host.logging, hPerform]
    cases answer with
    | error error => rw [performAction_of_error hPerform, performAction_of_error hLogging]
    | ok p =>
      simp only [Host.performAction, hPerform, hLogging]
      cases p.ending with
      | byItself status =>
        have hCancelled : h.logging.cancelled (t, log ++ [o.launch task action]) = h.cancelled t :=
          rfl
        simp only [hCancelled]
        split <;> rfl
      | overran | cancelled | lost => rfl

/-- With a log, a turn comes to the same and logs what it starts. -/
theorem take_logging (t : Turn h r o) (log : List Launch) :
    h.logging.take r o t.executed t.task (t.world, log) =
      ⟨t.attempt.result, t.attempt.emissions, t.attempt.late, t.attempt.world,
        log ++ t.launch?.toList⟩ := by
  have hLogged : h.logging.take r o t.executed t.task (t.world, log) =
      if h.cancelled t.ready then ⟨.error (.cancelled none), [], [], t.ready, log⟩
      else h.logging.handle r o t.executed t.task (t.ready, log) := rfl
  rw [hLogged, t.attempt_eq]
  cases hCancelled : h.cancelled t.ready with
  | true => simp [Turn.launch?, hCancelled]
  | false =>
    have hView : h.logging.view r o t.executed (t.ready, log) = t.view := rfl
    have hView' : h.view r o t.executed t.ready = t.view := rfl
    simp only [Host.handle, hView, hView', Turn.launch?, hCancelled]
    cases t.view.check t.task with
    | error fault => simp
    | ok freshness =>
      cases hAction : t.task.action with
      | none => cases freshness <;> simp
      | some action => cases freshness <;> simp [performAction_logging]

/-- The same turn with a log. -/
def Turn.logging (t : Turn h r o) (log : List Launch) : Turn h.logging r o :=
  ⟨t.task, t.executed, t.world, log⟩

theorem attempt_logging (t : Turn h r o) (log : List Launch) : (t.logging log).attempt =
    ⟨t.attempt.result, t.attempt.emissions, t.attempt.late, t.attempt.world,
      log ++ t.launch?.toList⟩ :=
  take_logging t log

theorem fault?_logging (t : Turn h r o) (log : List Launch) :
    (t.logging log).fault? = t.fault? := by
  simp only [Turn.fault?, attempt_logging]
  rfl

-- ---------------------------------------------------------------------------
-- Walking on from a point
-- ---------------------------------------------------------------------------

theorem walk_of_fault (t : Turn h r o) (rest : List Task) {fault : Fault}
    (hResult : t.attempt.result = .error fault) :
    h.walk r o t.executed (t.task :: rest) t.world =
      ⟨[], t.fault?, t.attempt.emissions, t.attempt.late, h.elapse t.attempt.world⟩ := by
  have hTake : h.take r o t.executed t.task t.world = t.attempt := rfl
  simp only [Host.walk, hTake, Turn.fault?, hResult]

theorem walk_of_outcome (t : Turn h r o) (rest : List Task) {outcome : Outcome}
    (hResult : t.attempt.result = .ok outcome) :
    h.walk r o t.executed (t.task :: rest) t.world =
      let later := h.walk r o (outcome.noted t.task t.executed) rest t.attempt.world
      { later with
        outcomes := outcome :: later.outcomes
        emissions := t.attempt.emissions ++ later.emissions
        late := t.attempt.late ++ later.late } := by
  have hTake : h.take r o t.executed t.task t.world = t.attempt := rfl
  simp only [Host.walk, hTake, hResult]

-- ---------------------------------------------------------------------------
-- What a run keeps
-- ---------------------------------------------------------------------------

/-- Neither time nor processes put an end to a property of states. -/
structure Host.Preserves (h : Host σ) (P : σ → Prop) : Prop where
  elapse  : ∀ s, P s → P (h.elapse s)
  perform : ∀ s launch, P s → P (h.perform s launch).2

namespace Host.Preserves

variable {P : σ → Prop}

theorem attempt (hKeeps : h.Preserves P) (t : Turn h r o) (hWorld : P t.world) :
    P t.attempt.world := by
  have hReady : P t.ready := hKeeps.elapse t.world hWorld
  cases t.fate with
  | cancelled _ hAttempt _ => rwa [hAttempt]
  | refused _ _ hAttempt _ => rwa [hAttempt]
  | skipped _ hAttempt _ => rwa [hAttempt]
  | aggregate _ _ hAttempt _ => rwa [hAttempt]
  | executed _ _ _ _ _ hAfter _ _ _ =>
    rw [hAfter]
    exact hKeeps.perform _ _ hReady
  | failed _ _ _ _ _ hAfter _ _ _ =>
    rw [hAfter]
    exact hKeeps.perform _ _ hReady

theorem walk (hKeeps : h.Preserves P) {executed : List String} {tasks : List Task} {s : σ}
    (hWorld : P s) : P (h.walk r o executed tasks s).world := by
  induction tasks generalizing executed s with
  | nil => exact hWorld
  | cons task rest ih =>
    let t : Turn h r o := ⟨task, executed, s⟩
    have hAttempt : P t.attempt.world := hKeeps.attempt t hWorld
    cases hResult : t.attempt.result with
    | error fault =>
      rw [walk_of_fault t rest hResult]
      exact hKeeps.elapse _ hAttempt
    | ok outcome =>
      rw [walk_of_outcome t rest hResult]
      exact ih hAttempt

/-- **A run keeps** what time and processes keep. -/
theorem run (hKeeps : h.Preserves P) {target : String} {s : σ} (hWorld : P s) :
    P (h.run r o target s).world := by
  unfold Host.run
  cases r.plan target with
  | error fault => exact hWorld
  | ok plan => exact hKeeps.walk hWorld

end Host.Preserves

namespace Point

/-- **A run passes the points that it reaches**, and walks on from there. -/
theorem Reached.walk_eq {plan : List Task} {s : σ} {p : Point h r o} (hReached : p.Reached plan s) :
    h.walk r o [] plan s =
      let later := h.walk r o p.executed p.rest p.world
      { later with
        outcomes := p.done.filterMap Turn.outcome? ++ later.outcomes
        emissions := p.done.flatMap (·.attempt.emissions) ++ later.emissions
        late := p.done.flatMap (·.attempt.late) ++ later.late } := by
  induction hReached with
  | start => rfl
  | @step done t rest outcome _ hResult ih =>
    have hOutcome : t.outcome? = some outcome := by rw [Turn.outcome?, hResult]; rfl
    rw [ih]
    dsimp only
    rw [walk_of_outcome t rest hResult]
    simp [hOutcome]

/-- **A run stops at its last point**, and tells what it came to there. It has
started what its turns start, whatever the log held before. -/
theorem exists_last {plan : List Task} {s : σ} {p : Point h r o} (hReached : p.Reached plan s) :
    ∃ (q : Point h r o) (later : List (Turn h r o)), q.Reached plan s ∧ q.IsLast ∧
      q.turns = p.done ++ later ∧
      h.walk r o p.executed p.rest p.world =
        ⟨later.filterMap Turn.outcome?, q.fault?, later.flatMap (·.attempt.emissions),
          later.flatMap (·.attempt.late), q.final⟩ ∧
      ∀ log, h.logging.walk r o p.executed p.rest (p.world, log) =
        ⟨later.filterMap Turn.outcome?, q.fault?, later.flatMap (·.attempt.emissions),
          later.flatMap (·.attempt.late), q.final, log ++ later.filterMap Turn.launch?⟩ := by
  obtain ⟨done, executed, rest, world⟩ := p
  -- on the tasks left: a turn that ends well leads to a point with one task less
  induction rest generalizing done executed world with
  | nil =>
    refine ⟨_, [], hReached, .inl rfl, rfl, rfl, fun log => ?_⟩
    rw [List.filterMap_nil, List.filterMap_nil, List.append_nil]
    rfl
  | cons task rest ih =>
    let t : Turn h r o := ⟨task, executed, world⟩
    cases hResult : t.attempt.result with
    | error fault =>
      -- this is the last point
      have hLogged : ∀ log, (t.logging log).attempt.result = .error fault := by
        simp [attempt_logging, hResult]
      refine ⟨⟨done, executed, task :: rest, world⟩, [t], hReached, .inr ?_, rfl, ?_, fun log => ?_⟩
      · have hFault : t.fault?.isSome = true := by simp [Turn.fault?, hResult]
        exact hFault
      · rw [walk_of_fault t rest hResult]
        simp [Turn.outcome?, hResult, Except.toOption, Point.fault?, Point.turn?, Point.final, t]
      · refine (walk_of_fault (t.logging log) rest (hLogged log)).trans ?_
        rw [attempt_logging, fault?_logging, List.filterMap_eq_flatMap_toList Turn.launch?]
        simp [Turn.outcome?, hResult, Except.toOption, Point.fault?, Point.turn?, Point.final,
          Host.logging, t]
    | ok outcome =>
      have hLogged : ∀ log, (t.logging log).attempt.result = .ok outcome := by
        simp [attempt_logging, hResult]
      obtain ⟨q, later, hq, hLast, hTurns, hWalk, hLog⟩ :=
        ih _ _ _ (hReached.step (t := t) hResult)
      refine ⟨q, t :: later, hq, hLast, by simpa using hTurns, ?_, fun log => ?_⟩
      · refine (walk_of_outcome t rest hResult).trans ?_
        simp only at hWalk
        rw [hWalk]
        simp [Turn.outcome?, hResult, Except.toOption]
      · refine (walk_of_outcome (t.logging log) rest (hLogged log)).trans ?_
        have hOn := hLog (log ++ t.launch?.toList)
        rw [attempt_logging]
        dsimp only [Turn.logging] at hOn ⊢
        rw [hOn, List.filterMap_eq_flatMap_toList Turn.launch?]
        simp [Turn.outcome?, hResult, Except.toOption,
          List.filterMap_eq_flatMap_toList Turn.launch?]

/-- The turns taken are those of the first tasks of the plan. -/
theorem Reached.turns_isPrefix {plan : List Task} {s : σ} {p : Point h r o}
    (hReached : p.Reached plan s) : p.turns.map Turn.task <+: plan := by
  rw [← hReached.plan_eq, turns, List.map_append]
  refine (List.prefix_append_right_inj _).mpr ?_
  rw [turn?]
  cases p.rest with
  | nil => simp
  | cons task rest => exact ⟨rest, rfl⟩

/-- A last point that nothing stops has nothing left. -/
theorem IsLast.rest_eq_nil {p : Point h r o} (hLast : p.IsLast) (hFault : p.fault? = none) :
    p.rest = [] := by
  simpa [IsLast, hFault] using hLast

/-- What stops a run comes from the last of its turns, which did not end
well. -/
theorem last_of_fault {p : Point h r o} {fault : Fault} (hFault : p.fault? = some fault) :
    ∃ t, p.turns = p.done ++ [t] ∧ t.fault? = some fault := by
  obtain ⟨t, hTurn, hStop⟩ := Option.bind_eq_some_iff.mp hFault
  exact ⟨t, turns_of_turn? hTurn, hStop⟩

/-- The turn at hand did not run if the run goes no further. -/
theorem IsLast.not_ran {p : Point h r o} (hLast : p.IsLast) {t : Turn h r o}
    (hTurn : p.turn? = some t) : ¬ t.Ran := by
  rcases hLast with hRest | hFault
  · simp [turn?, hRest] at hTurn
  · rw [fault?_of_turn? hTurn] at hFault
    obtain ⟨fault, hFault⟩ := Option.isSome_iff_exists.mp hFault
    exact Turn.not_ran_of_fault? hFault

theorem turns_eq_done {p : Point h r o} (hRest : p.rest = []) : p.turns = p.done := by
  simp [turns, turn?, hRest]

end Point

/-- The names of the tasks whose process ran with success in a run, in
order. -/
def Host.executedIn (h : Host σ) (r : Registry) (o : RunOptions) (target : String) (s : σ) :
    List String :=
  match r.plan target with
  | .error _ => []
  | .ok plan => ((h.walk r o [] plan s).outcomes.filter Outcome.isExecuted).map Outcome.name

/-- **A run with a plan** comes to what its last point tells. -/
theorem run_of_last {target : String} {plan : List Task} (hPlan : r.plan target = .ok plan) {s : σ}
    {p : Point h r o} (hReached : p.Reached plan s) (hLast : p.IsLast) :
    (h.run r o target s).emissions =
        .event (.run (.planned target (clamp64 plan.length))) ::
          p.turns.flatMap (·.attempt.emissions) ++
          [.event (.run (.closing target (h.now p.final - h.now s) p.fault?))] ∧
      (h.run r o target s).late = p.turns.flatMap (·.attempt.late) ∧
      (h.run r o target s).world = p.final ∧
      (h.run r o target s).result = p.fault?.elim
        (.ok ⟨target, p.turns.filterMap Turn.outcome?, h.now p.final - h.now s⟩) .error ∧
      h.launches r o target s = p.turns.filterMap Turn.launch? ∧
      h.executedIn r o target s =
        ((p.turns.filterMap Turn.outcome?).filter Outcome.isExecuted).map Outcome.name := by
  have hStart : Point.Reached plan s (⟨[], [], plan, s⟩ : Point h r o) := .start
  obtain ⟨q, later, hq, hEnd, hTurns, hWalk, hLog⟩ := Point.exists_last hStart
  obtain rfl : q.turns = later := hTurns
  obtain rfl := hq.eq_of_isLast hEnd hReached hLast
  dsimp only at hWalk hLog
  refine ⟨?_, ?_, ?_, ?_, ?_, ?_⟩
  · simp only [Host.run, hPlan, hWalk]
  · simp only [Host.run, hPlan, hWalk]
  · simp only [Host.run, hPlan, hWalk]
  · simp only [Host.run, hPlan, hWalk]
    cases q.fault? <;> rfl
  · simp only [Host.launches, Host.run, hPlan, hLog, List.nil_append]
  · simp only [Host.executedIn, hPlan, hWalk]

/-- Every run with a plan has such a point. -/
theorem run_of_plan {target : String} {plan : List Task} (hPlan : r.plan target = .ok plan)
    (s : σ) : ∃ q : Point h r o, q.Reached plan s ∧ q.IsLast ∧
      (h.run r o target s).world = q.final ∧
      (h.run r o target s).result = q.fault?.elim
        (.ok ⟨target, q.turns.filterMap Turn.outcome?, h.now q.final - h.now s⟩) .error ∧
      h.launches r o target s = q.turns.filterMap Turn.launch? ∧
      h.executedIn r o target s =
        ((q.turns.filterMap Turn.outcome?).filter Outcome.isExecuted).map Outcome.name := by
  obtain ⟨q, -, hReached, hLast, -⟩ := Point.exists_last (.start (h := h) (r := r) (o := o))
  exact ⟨q, hReached, hLast, (run_of_last hPlan hReached hLast).2.2⟩

/-- A run that succeeds with a plan ends where nothing is left. -/
theorem exists_point_of_ok {target : String} {plan : List Task} (hPlan : r.plan target = .ok plan)
    {s : σ} {report : Report} (hResult : (h.run r o target s).result = .ok report) :
    ∃ p : Point h r o, p.Reached plan s ∧ p.rest = [] ∧ (h.run r o target s).world = p.world := by
  obtain ⟨p, hReached, hLast, hWorld, hRun, -, -⟩ := run_of_plan (h := h) (o := o) hPlan s
  rw [hRun] at hResult
  cases hFault : p.fault? with
  | some fault =>
    rw [hFault] at hResult
    cases hResult
  | none =>
    have hRest := hLast.rest_eq_nil hFault
    have hFinal : p.final = p.world := by
      rw [Point.final, Point.turn?, hRest]
      rfl
    exact ⟨p, hReached, hRest, hWorld.trans hFinal⟩

/-- A run that fails with a plan fails at some turn. -/
theorem exists_turn_of_error {target : String} {plan : List Task} (hPlan : r.plan target = .ok plan)
    {s : σ} {fault : Fault} (hResult : (h.run r o target s).result = .error fault) :
    ∃ (p : Point h r o) (t : Turn h r o), p.Reached plan s ∧ p.turn? = some t ∧
      t.fault? = some fault ∧ (h.run r o target s).world = h.elapse t.attempt.world := by
  obtain ⟨p, hReached, -, hWorld, hRun, -, -⟩ := run_of_plan (h := h) (o := o) hPlan s
  rw [hRun] at hResult
  cases hFault : p.fault? with
  | none =>
    rw [hFault] at hResult
    cases hResult
  | some found =>
    rw [hFault] at hResult
    obtain rfl := Except.error.inj hResult
    obtain ⟨t, hTurn, hStop⟩ := Option.bind_eq_some_iff.mp hFault
    exact ⟨p, t, hReached, hTurn, hStop, hWorld.trans (Point.final_of_turn? hTurn)⟩

/-- A run whose first task does not end well comes to what stops it there. -/
theorem run_of_head {target : String} {task : Task} {rest : List Task}
    (hPlan : r.plan target = .ok (task :: rest)) {s : σ} {fault : Fault}
    (hFault : (⟨task, [], s⟩ : Turn h r o).fault? = some fault) :
    (h.run r o target s).result = .error fault := by
  have hLast : (⟨[], [], task :: rest, s⟩ : Point h r o).fault? = some fault := hFault
  obtain ⟨-, -, -, hRun, -⟩ := run_of_last hPlan .start (.inr (by rw [hLast]; rfl))
  rw [hRun, hLast]
  rfl

/-- A run without a plan comes to what the planning came to, and starts
nothing. -/
theorem run_of_fault {target : String} {fault : Fault} (hPlan : r.plan target = .error fault)
    (s : σ) : (h.run r o target s).result = .error fault ∧ h.launches r o target s = [] := by
  constructor
  · simp only [Host.run, hPlan]
  · simp only [Host.launches, Host.run, hPlan]

end TaskMill
