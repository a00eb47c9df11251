import TaskMill.Proofs.Resumption
/-!
# TaskMill — runs converge

A run that succeeds leaves nothing to do for the next one. What it leaves behind
is that each task of its plan is **settled** (`Host.Settled`): the time of its
artifact can be told, and if it has an action then its artifact is there and not
older than any that is looked at for it. A task is settled when its turn ends,
and stays so, because all that is looked at for it has had its turn before
(`Reached.settled`). Where all is settled, a run finds nothing to start
(`Reached.idle`).

This takes of the host that nothing but processes that succeed touches artifacts,
these only their own, and that what they make is not older than the rest
(`Host.Orderly`). Unlike in `Host.Tidy`, what is seen of an artifact is not only
its time but also a refusal to tell it, and a process that fails may do as it
likes.

## Results

* `Reached.settled` — the tasks that have had their turn are settled.
* `Reached.idle` — where all is settled, nothing is started.
* `run_converges` — a run after one that succeeded succeeds and starts nothing.
-/

namespace TaskMill

open Relation (ReflTransGen TransGen)

variable {σ : Type} {h : Host σ} {r : Registry} {o : RunOptions}

-- ---------------------------------------------------------------------------
-- Orderly hosts
-- ---------------------------------------------------------------------------

/-- The same is seen of all artifacts in two states. -/
def Host.SameSightings (h : Host σ) (r : Registry) (o : RunOptions) (s t : σ) : Prop :=
  ∀ task ∈ r.tasks, h.sighting? o t task = h.sighting? o s task

/-- Nothing but the processes of tasks touches artifacts, and those that succeed
only their own, which are then not older than any. -/
structure Host.Orderly (h : Host σ) (r : Registry) (o : RunOptions) : Prop where
  elapsed : ∀ s, h.SameSightings r o s (h.elapse s)
  others  : ∀ task ∈ r.tasks, ∀ action, task.action = some action → ∀ s,
    h.Succeeds s (o.launch task action) → ∀ other ∈ r.tasks, other.name ≠ task.name →
      h.sighting? o (h.perform s (o.launch task action)).2 other = h.sighting? o s other
  own     : ∀ task ∈ r.tasks, ∀ action, task.action = some action → ∀ s,
    h.Succeeds s (o.launch task action) → task.isPhony = false →
      ∃ time, h.sighting? o (h.perform s (o.launch task action)).2 task = some (.ok time) ∧
        ∀ other ∈ r.tasks, ∀ u,
          h.sighting? o (h.perform s (o.launch task action)).2 other = some (.ok u) → u ≤ time

theorem sighting?_congr {o' : RunOptions} (hRoot : o'.root = o.root) (s : σ) (task : Task) :
    h.sighting? o' s task = h.sighting? o s task := by
  rw [Host.sighting?, Host.sighting?, RunOptions.artifactOf, RunOptions.artifactOf, hRoot]

/-- Where an artifact that cannot be looked at is always one that is not there,
its time says all that is seen of it. -/
theorem sighting?_eq_of_stamp? (hOnly : ∀ s path error, h.modified s path = .error error →
      error = .notFound) {s t : σ} {task : Task} (hStamp : h.stamp? o t task = h.stamp? o s task) :
    h.sighting? o t task = h.sighting? o s task := by
  rw [Host.sighting?, Host.sighting?]
  rw [Host.stamp?, Host.stamp?] at hStamp
  cases hPath : o.artifactOf task with
  | none => rfl
  | some path =>
    rw [hPath, Option.bind_some, Option.bind_some] at hStamp
    rw [Option.map_some, Option.map_some]
    cases hLate : h.modified t path with
    | ok time =>
      rw [hLate] at hStamp
      rw [toOption_eq_some_iff.mp hStamp.symm]
    | error late =>
      obtain rfl := hOnly t path late hLate
      cases hEarly : h.modified s path with
      | ok time => simp [hLate, hEarly, Except.toOption] at hStamp
      | error early => rw [hOnly s path early hEarly]

theorem Host.Tidy.orderly (hTidy : h.Tidy r o)
    (hOnly : ∀ s path error, h.modified s path = .error error → error = .notFound) :
    h.Orderly r o where
  elapsed s task hTask := sighting?_eq_of_stamp? hOnly (hTidy.elapsed s task hTask)
  others task hTask action hAction s hSucceeds other hOther hName :=
    sighting?_eq_of_stamp? hOnly
      (hTidy.others task hTask action hAction s hSucceeds other hOther hName)
  own task hTask action hAction s hSucceeds hArtifact := by
    obtain ⟨time, hTime, hLater⟩ := hTidy.own task hTask action hAction s hSucceeds hArtifact
    refine ⟨time, stamp?_eq_some_iff.mp hTime, fun other hOther u hu => ?_⟩
    have hStamp := stamp?_eq_some_iff.mpr hu
    by_cases hName : other.name = task.name
    · obtain rfl : other = task := List.inj_on_of_nodup_map r.distinct hOther hTask hName
      rw [hTime] at hStamp
      exact Int.le_of_eq (Option.some.inj hStamp).symm
    · rw [hTidy.others task hTask action hAction s hSucceeds other hOther hName] at hStamp
      exact Int.le_of_lt (hLater other hOther u hStamp)

-- ---------------------------------------------------------------------------
-- Settled tasks
-- ---------------------------------------------------------------------------

/-- A look at the dependencies of a task comes to `name`. -/
def Registry.Underlies (r : Registry) (name : String) (task : Task) : Prop :=
  ∃ dep ∈ task.dependsOn, ReflTransGen r.Beneath dep name

/-- The time of a task's artifact can be told; and if the task has an action, the
artifact is there, and not older than those that are looked at for it. -/
structure Host.Settled (h : Host σ) (r : Registry) (o : RunOptions) (s : σ) (task : Task) :
    Prop where
  told  : ∀ error, h.sighting? o s task = some (.error error) → error = .notFound
  fresh : task.action.isSome = true → ∃ since, h.sighting? o s task = some (.ok since) ∧
    ∀ x ∈ r.tasks, r.Underlies x.name task →
      ∀ u, h.sighting? o s x = some (.ok u) → u ≤ since

theorem Registry.Underlies.reaches {name : String} {task : Task} (hTask : task ∈ r.tasks)
    (hUnder : r.Underlies name task) : r.Reaches task.name name := by
  obtain ⟨dep, hDep, hBeneath⟩ := hUnder
  exact .head ⟨task, hTask, rfl, hDep⟩ (Registry.reaches_of_beneath hBeneath)

/-- A task stays settled where the same is seen of it and of what is looked at
for it. -/
theorem Host.Settled.congr {o' : RunOptions} {s t : σ} {task : Task}
    (hSettled : h.Settled r o s task)
    (hOwn : h.sighting? o' t task = h.sighting? o s task)
    (hUnder : ∀ x ∈ r.tasks, r.Underlies x.name task →
      h.sighting? o' t x = h.sighting? o s x) : h.Settled r o' t task where
  told error hError := hSettled.told error (hOwn ▸ hError)
  fresh hAction := by
    obtain ⟨since, hSince, hOlder⟩ := hSettled.fresh hAction
    refine ⟨since, hOwn.trans hSince, fun x hx hx' u hu => hOlder x hx hx' u ?_⟩
    rwa [← hUnder x hx hx']

section Views

variable {executed : List String} {s : σ} {task : Task}

theorem told_of_not_refuses (hNot : ¬ (h.view r o executed s).Refuses task) :
    ∀ error, h.sighting? o s task = some (.error error) → error = .notFound := by
  intro error hError
  obtain ⟨path, hKind, hTime⟩ := sighting?_eq_some_iff.mp hError
  by_contra hOther
  exact hNot ⟨path, error, hKind, hTime, hOther⟩

theorem Host.Settled.not_refuses (hSettled : h.Settled r o s task) :
    ¬ (h.view r o executed s).Refuses task := by
  rintro ⟨path, error, hKind, hTime, hOther⟩
  exact hOther (hSettled.told error (sighting?_eq_some_iff.mpr ⟨path, hKind, hTime⟩))

/-- Where all that a look can come to is settled, nothing refuses to be looked
at. -/
theorem readable_of_settled
    (hUnder : ∀ x ∈ r.tasks, r.Underlies x.name task → h.Settled r o s x) :
    (h.view r o executed s).Readable task.dependsOn := by
  intro dep hDep n x hBeneath hFound
  obtain ⟨hx, rfl⟩ := Registry.get?_eq_some_iff.mp hFound
  exact (hUnder x hx ⟨dep, hDep, hBeneath⟩).not_refuses

/-- A settled task with an action has seen nothing younger than its artifact. -/
theorem Host.Settled.check_eq (hSettled : h.Settled r o s task)
    (hAction : task.action.isSome = true)
    (hUnder : ∀ x ∈ r.tasks, r.Underlies x.name task → h.Settled r o s x) :
    (h.view r o [] s).check task = .ok .upToDate := by
  obtain ⟨since, hSince, hOlder⟩ := hSettled.fresh hAction
  obtain ⟨path, hKind, hTime⟩ := sighting?_eq_some_iff.mp hSince
  refine Freshness.View.check_of_quiet hKind hTime (readable_of_settled hUnder) ?_
  intro dep hDep n hBeneath
  refine ⟨List.not_mem_nil, fun x artifact hFound hArtifact u hu => ?_⟩
  obtain ⟨hx, rfl⟩ := Registry.get?_eq_some_iff.mp hFound
  exact hOlder x hx ⟨dep, hDep, hBeneath⟩ u (sighting?_eq_some_iff.mpr ⟨artifact, hArtifact, hu⟩)

end Views

-- ---------------------------------------------------------------------------
-- Turns that settle a task
-- ---------------------------------------------------------------------------

namespace Turn

variable {t : Turn h r o} {outcome : Outcome}

theorem exists_check (hResult : t.attempt.result = .ok outcome) :
    ∃ freshness, t.view.check t.task = .ok freshness := by
  cases hCheck : t.view.check t.task with
  | ok freshness => exact ⟨freshness, rfl⟩
  | error fault =>
    have hSeen : (h.view r o t.executed t.ready).check t.task = .error fault := hCheck
    rw [t.attempt_eq, Host.handle, hSeen] at hResult
    split at hResult <;> cases hResult

/-- A turn that ends well touches no artifact but that of its task. -/
theorem sighting?_attempt (hOrderly : h.Orderly r o) (hTask : t.task ∈ r.tasks)
    (hResult : t.attempt.result = .ok outcome) {other : Task} (hOther : other ∈ r.tasks)
    (hName : other.name ≠ t.name) :
    h.sighting? o t.attempt.world other = h.sighting? o t.world other := by
  have hReady : h.sighting? o t.ready other = h.sighting? o t.world other :=
    hOrderly.elapsed t.world other hOther
  cases t.fate with
  | cancelled _ hAttempt _ => simp [hAttempt] at hResult
  | refused _ _ hAttempt _ => simp [hAttempt] at hResult
  | skipped _ hAttempt _ => rwa [hAttempt]
  | aggregate _ _ hAttempt _ => rwa [hAttempt]
  | executed action _ _ hAction hLaunch hWorld hExit hSuccess _ =>
    have hSucceeds := succeeds_of_exit? hLaunch hExit hSuccess
    rw [hWorld, hOrderly.others t.task hTask action hAction t.ready hSucceeds other hOther hName]
    exact hReady
  | failed _ _ _ _ _ _ _ hFailed _ => simp [hFailed] at hResult

/-- **A turn that ends well settles its task.** -/
theorem settled (hOrderly : h.Orderly r o) (hTask : t.task ∈ r.tasks)
    (hMakes : t.task.isPhony = true → t.task.action = none)
    (hResult : t.attempt.result = .ok outcome) : h.Settled r o t.attempt.world t.task := by
  -- the time of the artifact was told when the task was looked at
  have hTold : ¬ t.view.Refuses t.task := by
    intro hRefuses
    obtain ⟨freshness, hCheck⟩ := exists_check hResult
    obtain ⟨fault, hFault⟩ := Freshness.View.check_of_refuses hRefuses
    rw [hCheck] at hFault
    cases hFault
  cases t.fate with
  | cancelled _ hAttempt _ => simp [hAttempt] at hResult
  | refused _ _ hAttempt _ => simp [hAttempt] at hResult
  | skipped hCheck hAttempt _ =>
    rw [hAttempt]
    refine ⟨told_of_not_refuses hTold, fun _ => ?_⟩
    obtain ⟨path, since, hKind, hTime, hQuiet⟩ := Freshness.View.check_upToDate hCheck
    refine ⟨since, sighting?_eq_some_iff.mpr ⟨path, hKind, hTime⟩, ?_⟩
    rintro x hx ⟨dep, hDep, hBeneath⟩ u hu
    exact stamp_le_of_quiet hx (hQuiet dep hDep x.name hBeneath) (stamp?_eq_some_iff.mpr hu)
  | aggregate _ hAction hAttempt _ =>
    rw [hAttempt]
    exact ⟨told_of_not_refuses hTold, fun hSome => by simp [hAction] at hSome⟩
  | executed action _ _ hAction hLaunch hWorld hExit hSuccess _ =>
    have hSucceeds := succeeds_of_exit? hLaunch hExit hSuccess
    have hArtifact : t.task.isPhony = false := by
      rw [← Bool.not_eq_true]
      intro hPhony
      simp [hMakes hPhony] at hAction
    obtain ⟨time, hTime, hLatest⟩ :=
      hOrderly.own t.task hTask action hAction t.ready hSucceeds hArtifact
    rw [hWorld]
    refine ⟨fun error hError => ?_, fun _ => ⟨time, hTime, fun x hx _ => hLatest x hx⟩⟩
    rw [hTime] at hError
    cases hError
  | failed _ _ _ _ _ _ _ hFailed _ => simp [hFailed] at hResult

/-- A turn in which all that is looked at is settled starts nothing and changes
nothing. -/
theorem idle_of_settled (hReady : h.cancelled t.ready = false) (hExecuted : t.executed = [])
    (hOwn : h.Settled r o t.ready t.task)
    (hUnder : ∀ x ∈ r.tasks, r.Underlies x.name t.task → h.Settled r o t.ready x) :
    t.launch? = none ∧ t.attempt.world = t.ready ∧
      ∃ outcome, t.attempt.result = .ok outcome ∧ outcome.noted t.task t.executed = [] := by
  have hView : t.view = h.view r o [] t.ready := by rw [view, hExecuted]
  obtain ⟨freshness, hCheck⟩ : ∃ freshness, t.view.check t.task = .ok freshness := by
    rw [hView]
    exact Freshness.View.check_eq_ok hOwn.not_refuses (readable_of_settled hUnder)
  by_cases hFresh : freshness = .upToDate
  · subst hFresh
    rw [t.attempt_of_upToDate hReady hCheck]
    exact ⟨t.launch?_of_upToDate hCheck, rfl, _, rfl, hExecuted⟩
  · -- only a task without an action is not up to date
    have hAction : t.task.action = none := by
      rw [← Option.not_isSome_iff_eq_none]
      intro hSome
      rw [hView, hOwn.check_eq hSome hUnder] at hCheck
      exact hFresh (Except.ok.inj hCheck).symm
    rw [t.attempt_of_aggregate hReady hCheck hFresh hAction]
    refine ⟨t.launch?_of_no_action hAction, rfl, _, rfl, ?_⟩
    simp [Outcome.noted, Outcome.counts, hExecuted]

end Turn

-- ---------------------------------------------------------------------------
-- Runs that settle a plan
-- ---------------------------------------------------------------------------

namespace Point.Reached

variable {plan : List Task} {s : σ} {target : String} {p : Point h r o}

/-- **The tasks that have had their turn are settled.** What is looked at for
them has had its turn before, so no later turn touches it. -/
theorem settled (hOrderly : h.Orderly r o) (hPlan : r.IsPlan target plan)
    (hMakes : ∀ task ∈ plan, task.isPhony = true → task.action = none)
    (hReached : p.Reached plan s) : ∀ u ∈ p.done, h.Settled r o p.world u.task := by
  induction hReached with
  | start => simp
  | @step done t rest outcome hBefore hResult ih =>
    have hTask : t.task ∈ r.tasks := hBefore.task_mem hPlan
    have hInPlan : t.task ∈ plan := by
      rw [← hBefore.plan_eq]
      simp
    have hKept : ∀ x ∈ r.tasks, x.name ∈ done.map Turn.name →
        h.sighting? o t.attempt.world x = h.sighting? o t.world x := by
      intro x hx hDone
      refine Turn.sighting?_attempt hOrderly hTask hResult hx ?_
      rintro hName
      rw [hName] at hDone
      exact hBefore.name_not_mem hPlan hDone
    intro u hu
    rcases List.mem_append.mp hu with hu | hu
    · -- an earlier turn: nothing that it looked at is touched by this one
      have hTaskU : u.task ∈ r.tasks := by
        refine hPlan.registered u.task ?_
        rw [← hBefore.plan_eq]
        exact List.mem_append_left _ (List.mem_map_of_mem hu)
      refine (ih u hu).congr (hKept u.task hTaskU (List.mem_map_of_mem hu)) fun x hx hUnder => ?_
      exact hKept x hx (hBefore.mem_names_of_reaches hPlan hu (hUnder.reaches hTaskU))
    · obtain rfl := List.mem_singleton.mp hu
      exact Turn.settled hOrderly hTask (hMakes u.task hInPlan) hResult

section Settled

variable (hElapsed : ∀ s, h.SameSightings r o s (h.elapse s)) (hPlan : r.IsPlan target plan)
  (hSettled : ∀ task ∈ plan, h.Settled r o s task)
  (hUncancelled : ∀ (q : Point h r o) (t : Turn h r o), q.Reached plan s → q.turn? = some t →
    h.cancelled t.ready = false)

include hElapsed hPlan hSettled hUncancelled

/-- A turn is idle where nothing was executed or touched before it. -/
theorem idle_turn {done : List (Turn h r o)} {t : Turn h r o} {rest : List Task}
    (hReached : Reached plan s ⟨done, t.executed, t.task :: rest, t.world⟩)
    (hExecuted : t.executed = []) (hSame : h.SameSightings r o s t.world) :
    t.launch? = none ∧ t.attempt.world = t.ready ∧
      ∃ outcome, t.attempt.result = .ok outcome ∧ outcome.noted t.task t.executed = [] := by
  have hInPlan : t.task ∈ plan := by
    rw [← hReached.plan_eq]
    simp
  have hReady : ∀ x ∈ r.tasks, h.sighting? o t.ready x = h.sighting? o s x :=
    fun x hx => (hElapsed t.world x hx).trans (hSame x hx)
  have hStill : ∀ x ∈ plan, h.Settled r o t.ready x := fun x hx =>
    (hSettled x hx).congr (hReady x (hPlan.registered x hx)) fun y hy _ => hReady y hy
  refine Turn.idle_of_settled (hUncancelled _ t hReached rfl) hExecuted (hStill t.task hInPlan) ?_
  intro x hx hUnder
  have hTask : t.task ∈ r.tasks := hPlan.registered t.task hInPlan
  exact hStill x (hPlan.mem_of_reaches hInPlan hx (hUnder.reaches hTask))

/-- **Where all is settled, nothing is started.** -/
theorem idle (hReached : p.Reached plan s) :
    p.executed = [] ∧ h.SameSightings r o s p.world ∧ ∀ t ∈ p.done, t.launch? = none := by
  induction hReached with
  | start => exact ⟨rfl, fun _ _ => rfl, by simp⟩
  | @step done t rest outcome hBefore hResult ih =>
    obtain ⟨hExecuted, hSame, hDone⟩ := ih
    obtain ⟨hLaunch, hWorld, outcome', hResult', hNoted⟩ :=
      idle_turn hElapsed hPlan hSettled hUncancelled hBefore hExecuted hSame
    obtain rfl := Except.ok.inj (hResult.symm.trans hResult')
    refine ⟨hNoted, ?_, ?_⟩
    · rw [hWorld]
      exact fun x hx => (hElapsed t.world x hx).trans (hSame x hx)
    · simpa [or_imp, forall_and] using ⟨hDone, hLaunch⟩

/-- So the run gets to the end of its plan. -/
theorem rest_eq_nil_of_idle (hReached : p.Reached plan s) (hLast : p.IsLast) : p.rest = [] := by
  refine hLast.rest_eq_nil ?_
  cases hTurn : p.turn? with
  | none => rw [fault?, hTurn, Option.bind_none]
  | some t =>
    obtain ⟨rest, hPoint⟩ := eq_of_turn? hTurn
    rw [hPoint] at hReached
    obtain ⟨hExecuted, hSame, -⟩ := idle hElapsed hPlan hSettled hUncancelled hReached
    obtain ⟨-, -, outcome, hResult, -⟩ :=
      idle_turn hElapsed hPlan hSettled hUncancelled hReached hExecuted hSame
    rw [fault?_of_turn? hTurn, Turn.fault?, hResult]

end Settled

end Point.Reached

-- ---------------------------------------------------------------------------
-- One run after another
-- ---------------------------------------------------------------------------

theorem settled_of_run (hOrderly : h.Orderly r o) {target : String} {plan : List Task}
    (hPlan : r.plan target = .ok plan)
    (hMakes : ∀ task ∈ plan, task.isPhony = true → task.action = none) {s : σ} {report : Report}
    (hRun : (h.run r o target s).result = .ok report) :
    ∀ task ∈ plan, h.Settled r o (h.run r o target s).world task := by
  obtain ⟨p, hReached, hRest, hWorld⟩ := exists_point_of_ok hPlan hRun
  intro task hTask
  obtain ⟨t, ht, rfl⟩ := exists_turn hReached hRest hTask
  rw [hWorld]
  exact hReached.settled hOrderly (Registry.isPlan_of_plan hPlan) hMakes t ht

/--
**Runs converge.** On an orderly host, let a run of a target succeed, where no
phony task of the target's closure has an action. Then a second run of it,
before which no artifact is touched and during which no cancellation arrives,
succeeds too, executes nothing and starts nothing.

The second run may have other limits, and capture otherwise, than the first.
-/
theorem run_converges {o' : RunOptions} (hOrderly : h.Orderly r o) (hRoot : o'.root = o.root)
    {target : String}
    (hMakes : ∀ task ∈ r.tasks, r.Reaches target task.name → task.isPhony = true →
      task.action = none)
    {s s' : σ} {report : Report} (hFirst : (h.run r o target s).result = .ok report)
    (hBetween : h.SameSightings r o (h.run r o target s).world s')
    (hUncancelled : ∀ plan, r.plan target = .ok plan → ∀ (p : Point h r o') (t : Turn h r o'),
      p.Reached plan s' → p.turn? = some t → h.cancelled t.ready = false) :
    ∃ report', (h.run r o' target s').result = .ok report' ∧ report'.executed = [] ∧
      h.launches r o' target s' = [] := by
  cases hPlan : r.plan target with
  | error fault =>
    rw [(run_of_fault hPlan s).1] at hFirst
    cases hFirst
  | ok plan =>
    have hIsPlan := Registry.isPlan_of_plan hPlan
    have hMakes' : ∀ task ∈ plan, task.isPhony = true → task.action = none := fun task hTask =>
      hMakes task (hIsPlan.registered task hTask)
        ((hIsPlan.closure task.name).mp (List.mem_map_of_mem hTask))
    have hElapsed : ∀ u, h.SameSightings r o' u (h.elapse u) := by
      intro u task hTask
      rw [sighting?_congr hRoot, sighting?_congr hRoot, hOrderly.elapsed u task hTask]
    have hSettled : ∀ task ∈ plan, h.Settled r o' s' task := by
      intro task hTask
      have hSame : ∀ x ∈ r.tasks,
          h.sighting? o' s' x = h.sighting? o (h.run r o target s).world x := by
        intro x hx
        rw [sighting?_congr hRoot, hBetween x hx]
      exact (settled_of_run hOrderly hPlan hMakes' hFirst task hTask).congr
        (hSame task (hIsPlan.registered task hTask)) fun x hx _ => hSame x hx
    obtain ⟨q, hReached, hLast, -, hResult, hLaunches, -⟩ :=
      run_of_plan (h := h) (o := o') hPlan s'
    have hRest := hReached.rest_eq_nil_of_idle hElapsed hIsPlan hSettled (hUncancelled plan hPlan)
      hLast
    obtain ⟨-, -, hNone⟩ := hReached.idle hElapsed hIsPlan hSettled (hUncancelled plan hPlan)
    rw [← Point.turns_eq_done hRest] at hNone
    have hFault : q.fault? = none := by
      rw [Point.fault?, Point.turn?, hRest]
      rfl
    rw [hFault] at hResult
    refine ⟨_, hResult, ?_, ?_⟩
    · -- a task that is told as executed was started
      rw [Report.executed, List.eq_nil_iff_forall_not_mem]
      intro name hName
      obtain ⟨t, ht, hRan, -⟩ := mem_names_executed_iff.mp hName
      exact Turn.not_ran_of_exit? (Turn.exit?_eq_none (hNone t ht)) hRan
    · rw [hLaunches, List.filterMap_eq_nil_iff]
      exact hNone

section Bundling

open Bundling

theorem orderly_ledger : host.Orderly named options := by
  refine (Ledger.tidy (by decide) (by decide) : host.Tidy named options).orderly ?_
  intro l path error hError
  simp only [Ledger.host, Ledger.modified] at hError
  split at hError
  · cases hError
  · exact (Except.error.inj hError).symm

/-- Of a library that is there, a name for it and a program, the first run makes
the program, and the second makes nothing. -/
theorem run_converges_app :
    (host.run named options "app" mended).result =
      .ok ⟨"app", [.skipped "lib", .aggregate "bundle", .executed "app" ⟨.exited 0, [], []⟩], 0⟩ ∧
    ∃ report', (host.run named options "app"
        (host.run named options "app" mended).world).result = .ok report' ∧
      report'.executed = [] ∧
      host.launches named options "app" (host.run named options "app" mended).world = [] := by
  refine ⟨run_named_mended, ?_⟩
  refine run_converges orderly_ledger rfl ?_ run_named_mended (fun _ _ => rfl)
    fun _ _ _ _ _ _ => rfl
  intro task hTask _
  simp only [named, registry, Registry.tasks_ofDistinct, List.mem_cons, List.not_mem_nil,
    or_false] at hTask
  rcases hTask with rfl | rfl | rfl
  · intro hPhony
    cases hPhony
  · exact fun _ => rfl
  · intro hPhony
    cases hPhony

end Bundling

end TaskMill
