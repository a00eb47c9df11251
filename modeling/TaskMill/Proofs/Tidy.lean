import TaskMill.Proofs.Ledger
import TaskMill.Proofs.Course
/-!
# TaskMill — tidy hosts

A host is **tidy** if nothing but the processes of tasks touches artifacts, and
these no others than their own: a process that exits with success leaves the
artifact of its task later than all artifacts were, one that does not leaves
everything as it was. That distinct tasks have distinct artifacts need not be
said, for else no process of theirs could be tidy and exit with success.

What a run on a tidy host does to artifacts can be read off the tasks that ran.
Where a task did not run, its artifact is as it was (`Reached.kept`); where one
ran, its artifact is later than those of all tasks that did not
(`Reached.renewed`).

A ledger is tidy if each command makes the artifact of its task (`Ledger.tidy`).
-/

namespace TaskMill

variable {σ : Type} {h : Host σ} {r : Registry} {o : RunOptions}

-- ---------------------------------------------------------------------------
-- Tidiness
-- ---------------------------------------------------------------------------

/-- Where a run looks for the artifact of a task, if it has one. -/
def RunOptions.artifactOf (o : RunOptions) (task : Task) : Option Path :=
  task.kind.artifact?.map o.root.join

theorem exists_artifactOf {task : Task} (hArtifact : task.isPhony = false) :
    ∃ path, o.artifactOf task = some path := by
  obtain ⟨path, hPath⟩ := Option.isSome_iff_exists.mp (Option.isNone_eq_false_iff.mp hArtifact)
  exact ⟨o.root.join path, by rw [RunOptions.artifactOf, hPath]; rfl⟩

/-- When the artifact of a task was modified, if it has one that is there. -/
def Host.stamp? (h : Host σ) (o : RunOptions) (s : σ) (task : Task) : Option Int :=
  (o.artifactOf task).bind fun path => (h.modified s path).toOption

/-- What is seen of the artifact of a task, if it has one: its time, or why this
is not told. -/
def Host.sighting? (h : Host σ) (o : RunOptions) (s : σ) (task : Task) :
    Option (Except SystemError Int) :=
  (o.artifactOf task).map (h.modified s)

theorem sighting?_eq_some_iff {s : σ} {task : Task} {seen : Except SystemError Int} :
    h.sighting? o s task = some seen ↔
      ∃ path, task.kind = .artifact path ∧ h.modified s (o.root.join path) = seen := by
  rw [Host.sighting?, RunOptions.artifactOf]
  cases task.kind with
  | phony => simp [TaskKind.artifact?]
  | artifact path => simp [TaskKind.artifact?]

theorem stamp?_eq_some_iff {s : σ} {task : Task} {time : Int} :
    h.stamp? o s task = some time ↔ h.sighting? o s task = some (.ok time) := by
  rw [Host.stamp?, Host.sighting?]
  cases o.artifactOf task with
  | none => simp
  | some path => simp [toOption_eq_some_iff]

/-- No artifact was touched between two states. -/
def Host.SameStamps (h : Host σ) (r : Registry) (o : RunOptions) (s t : σ) : Prop :=
  ∀ task ∈ r.tasks, h.stamp? o t task = h.stamp? o s task

/-- A process can be started and exits with success. -/
def Host.Succeeds (h : Host σ) (s : σ) (launch : Launch) : Prop :=
  ∃ status, h.exit? s launch = some status ∧ status.isSuccess = true

/-- Nothing touches artifacts but the processes of tasks, and these only their
own and only when they succeed, which leaves these later than all others. -/
structure Host.Tidy (h : Host σ) (r : Registry) (o : RunOptions) : Prop where
  elapsed : ∀ s, h.SameStamps r o s (h.elapse s)
  failed  : ∀ task ∈ r.tasks, ∀ action, task.action = some action → ∀ s,
    ¬ h.Succeeds s (o.launch task action) →
      h.SameStamps r o s (h.perform s (o.launch task action)).2
  others  : ∀ task ∈ r.tasks, ∀ action, task.action = some action → ∀ s,
    h.Succeeds s (o.launch task action) → ∀ other ∈ r.tasks, other.name ≠ task.name →
      h.stamp? o (h.perform s (o.launch task action)).2 other = h.stamp? o s other
  own     : ∀ task ∈ r.tasks, ∀ action, task.action = some action → ∀ s,
    h.Succeeds s (o.launch task action) → task.isPhony = false →
      ∃ time, h.stamp? o (h.perform s (o.launch task action)).2 task = some time ∧
        ∀ other ∈ r.tasks, ∀ t, h.stamp? o s other = some t → t < time

namespace Host.SameStamps

theorem refl (s : σ) : h.SameStamps r o s s := fun _ _ => rfl

theorem trans {s t u : σ} (hst : h.SameStamps r o s t) (htu : h.SameStamps r o t u) :
    h.SameStamps r o s u :=
  fun task hTask => (htu task hTask).trans (hst task hTask)

end Host.SameStamps

-- ---------------------------------------------------------------------------
-- Turns on a tidy host
-- ---------------------------------------------------------------------------

namespace Turn

variable {t : Turn h r o}

theorem succeeds_of_exit? {launch : Launch} (hLaunch : t.launch? = some launch)
    {status : ExitStatus} (hExit : t.exit? = some status) (hSuccess : status.isSuccess = true) :
    h.Succeeds t.ready launch := by
  rw [exit?, hLaunch] at hExit
  exact ⟨status, hExit, hSuccess⟩

/-- A turn whose process did not run touches nothing. -/
theorem sameStamps_of_not_ran (hTidy : h.Tidy r o) (hTask : t.task ∈ r.tasks) (hRan : ¬ t.Ran) :
    h.SameStamps r o t.world t.attempt.world := by
  have hReady : h.SameStamps r o t.world t.ready := hTidy.elapsed t.world
  cases t.fate with
  | cancelled _ hAttempt _ => rwa [hAttempt]
  | refused _ _ hAttempt _ => rwa [hAttempt]
  | skipped _ hAttempt _ => rwa [hAttempt]
  | aggregate _ _ hAttempt _ => rwa [hAttempt]
  | executed _ _ _ _ _ _ hExit hSuccess _ => exact absurd ⟨_, hExit, hSuccess⟩ hRan
  | failed action _ _ hAction hLaunch hWorld _ _ _ =>
    rw [hWorld]
    refine hReady.trans (hTidy.failed t.task hTask action hAction t.ready ?_)
    rintro ⟨status, hExit, hSuccess⟩
    exact hRan ⟨status, by rwa [exit?, hLaunch], hSuccess⟩

/-- A turn whose process ran touches only the artifact of its task, and leaves
that later than all were. -/
theorem stamps_of_ran (hTidy : h.Tidy r o) (hTask : t.task ∈ r.tasks) (hRan : t.Ran) :
    (∀ other ∈ r.tasks, other.name ≠ t.name →
      h.stamp? o t.attempt.world other = h.stamp? o t.world other) ∧
    (t.task.isPhony = false → ∃ time, h.stamp? o t.attempt.world t.task = some time ∧
      ∀ other ∈ r.tasks, ∀ u, h.stamp? o t.world other = some u → u < time) := by
  have hReady : h.SameStamps r o t.world t.ready := hTidy.elapsed t.world
  obtain ⟨finished, hResult⟩ := ran_iff.mp hRan
  cases ended hResult with
  | executed action _ _ hAction hLaunch hWorld hExit hSuccess =>
    have hSucceeds := succeeds_of_exit? hLaunch hExit hSuccess
    rw [hWorld]
    constructor
    · intro other hOther hName
      rw [hTidy.others t.task hTask action hAction t.ready hSucceeds other hOther hName]
      exact hReady other hOther
    · intro hArtifact
      obtain ⟨time, hTime, hLater⟩ :=
        hTidy.own t.task hTask action hAction t.ready hSucceeds hArtifact
      refine ⟨time, hTime, fun other hOther u hu => hLater other hOther u ?_⟩
      rwa [hReady other hOther]

end Turn

-- ---------------------------------------------------------------------------
-- Runs on a tidy host
-- ---------------------------------------------------------------------------

namespace Point.Reached

variable {plan : List Task} {s : σ} {target : String} {p : Point h r o}

/-- Where no process ran for a task, its artifact is as it was. -/
theorem kept (hTidy : h.Tidy r o) (hPlan : r.IsPlan target plan) (hReached : p.Reached plan s) :
    ∀ task ∈ r.tasks, ¬ RanIn p.done task.name → h.stamp? o p.world task = h.stamp? o s task := by
  induction hReached with
  | start => exact fun _ _ _ => rfl
  | @step done t rest outcome hBefore _ ih =>
    intro task hTask hNot
    rw [ranIn_concat, not_or] at hNot
    rw [← ih task hTask hNot.1]
    by_cases hRan : t.Ran
    · refine (Turn.stamps_of_ran hTidy (hBefore.task_mem hPlan) hRan).1 task hTask fun hName => ?_
      exact hNot.2 ⟨hRan, hName.symm⟩
    · exact Turn.sameStamps_of_not_ran hTidy (hBefore.task_mem hPlan) hRan task hTask

/-- The artifact of a task that ran is later than those of all that did not. -/
theorem renewed (hTidy : h.Tidy r o) (hPlan : r.IsPlan target plan) (hReached : p.Reached plan s) :
    ∀ task ∈ r.tasks, RanIn p.done task.name → task.isPhony = false →
      ∃ time, h.stamp? o p.world task = some time ∧
        ∀ other ∈ r.tasks, ¬ RanIn p.done other.name →
          ∀ u, h.stamp? o p.world other = some u → u < time := by
  induction hReached with
  | start => simp [RanIn]
  | @step done t rest outcome hBefore _ ih =>
    intro task hTask hRanIn hArtifact
    have hMem := hBefore.task_mem hPlan
    by_cases hRan : t.Ran
    · obtain ⟨hOthers, hOwn⟩ := Turn.stamps_of_ran hTidy hMem hRan
      by_cases hName : task.name = t.name
      · -- the task at hand gets a time of its own
        obtain rfl : task = t.task := List.inj_on_of_nodup_map r.distinct hTask hMem hName
        obtain ⟨time, hTime, hLater⟩ := hOwn hArtifact
        refine ⟨time, hTime, fun other hOther hNot u hu => hLater other hOther u ?_⟩
        rw [← hOthers other hOther fun hEq => hNot (ranIn_concat.mpr (.inr ⟨hRan, hEq.symm⟩))]
        exact hu
      · -- it ran earlier, and what has not run by now had not run by then
        have hEarlier : RanIn done task.name :=
          (ranIn_concat.mp hRanIn).resolve_right fun hThis => hName hThis.2.symm
        obtain ⟨time, hTime, hLater⟩ := ih task hTask hEarlier hArtifact
        refine ⟨time, (hOthers task hTask hName).trans hTime, fun other hOther hNot u hu => ?_⟩
        rw [ranIn_concat, not_or] at hNot
        refine hLater other hOther hNot.1 u ?_
        rw [← hOthers other hOther fun hEq => hNot.2 ⟨hRan, hEq.symm⟩]
        exact hu
    · -- nothing happened, so it ran earlier
      have hSame := Turn.sameStamps_of_not_ran hTidy hMem hRan
      have hEarlier : RanIn done task.name :=
        (ranIn_concat.mp hRanIn).resolve_right fun hThis => hRan hThis.1
      obtain ⟨time, hTime, hLater⟩ := ih task hTask hEarlier hArtifact
      refine ⟨time, (hSame task hTask).trans hTime, fun other hOther hNot u hu => ?_⟩
      rw [ranIn_concat, not_or] at hNot
      refine hLater other hOther hNot.1 u ?_
      rw [← hSame other hOther]
      exact hu

end Point.Reached

-- ---------------------------------------------------------------------------
-- Ledgers
-- ---------------------------------------------------------------------------

namespace Ledger

variable {makes : String → Option Path} {launch : Launch} {l : Ledger}

theorem succeeds_iff : (host makes).Succeeds l launch ↔ launch.command ∉ l.broken := by
  by_cases hBroken : launch.command ∈ l.broken <;>
    simp [Host.Succeeds, Host.exit?, host, hBroken, Except.toOption, Ending.status?,
      ExitStatus.isSuccess]

theorem perform_of_broken (hBroken : launch.command ∈ l.broken) :
    ((host makes).perform l launch).2 = l := by
  simp [host, hBroken]

theorem perform_of_not_broken (hBroken : launch.command ∉ l.broken) :
    ((host makes).perform l launch).2 = l.produce (makes launch.command) := by
  simp [host, hBroken]

/-- A ledger is tidy where each command makes the artifact of its task, and
distinct tasks have distinct artifacts. -/
theorem tidy
    (hMakes : ∀ task ∈ r.tasks, ∀ action ∈ task.action,
      makes action.command = o.artifactOf task)
    (hApart : ∀ a ∈ r.tasks, ∀ b ∈ r.tasks, (o.artifactOf a).isSome = true →
      o.artifactOf a = o.artifactOf b → a.name = b.name) :
    (host makes).Tidy r o where
  elapsed _ := .refl _
  failed task _ action _ l hFails := by
    rw [succeeds_iff, not_not] at hFails
    rw [perform_of_broken hFails]
    exact .refl _
  others task hTask action hAction l hSucceeds other hOther hName := by
    rw [succeeds_iff] at hSucceeds
    rw [perform_of_not_broken hSucceeds, RunOptions.launch, hMakes task hTask action hAction]
    cases hPath : o.artifactOf task with
    | none => rfl
    | some path =>
      cases hOtherPath : o.artifactOf other with
      | none => simp [Host.stamp?, hOtherPath]
      | some otherPath =>
        have hNe : otherPath ≠ path := by
          rintro rfl
          exact hName (hApart other hOther task hTask (by simp [hOtherPath])
            (hOtherPath.trans hPath.symm))
        simp only [Host.stamp?, hOtherPath, Option.bind_some, host, produce]
        rw [modified_stamp_of_ne hNe]
  own task hTask action hAction l hSucceeds hArtifact := by
    rw [succeeds_iff] at hSucceeds
    rw [perform_of_not_broken hSucceeds, RunOptions.launch, hMakes task hTask action hAction]
    obtain ⟨path, hPath⟩ := exists_artifactOf (o := o) hArtifact
    refine ⟨l.next, ?_, fun other hOther u hu => ?_⟩
    · simp only [Host.stamp?, hPath, Option.bind_some, host, produce]
      rw [modified_stamp_self]
      rfl
    · obtain ⟨otherPath, -, hTime⟩ := Option.bind_eq_some_iff.mp hu
      exact lt_next (toOption_eq_some_iff.mp hTime)

end Ledger

end TaskMill
