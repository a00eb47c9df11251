import Mathlib
import TaskMill.Proofs.Course
import TaskMill.Proofs.Ledger
/-!
# TaskMill — what counts as executed

A run keeps the names of the tasks that were executed. At every point these are,
among the tasks handled, those whose process ran and those that need one whose
process ran, over any number of steps (`executed_iff`): a task that ran counts
by itself, one without an action counts as soon as one of its dependencies
does, and one that is skipped does not count, for it would not have been skipped
if one of its dependencies did.

So a task is never skipped when the process of something it needs has run.
-/

namespace TaskMill

open Relation (ReflTransGen TransGen)

variable {σ : Type} {h : Host σ} {r : Registry} {o : RunOptions}
variable {plan : List Task} {s : σ} {target : String}

/-- The tasks that a run keeps as executed are those handled whose process ran,
or that of something they need. -/
structure Point.Noted (p : Point h r o) : Prop where
  handled : ∀ n ∈ p.executed, n ∈ p.done.map Turn.name
  exact   : ∀ x ∈ p.done,
    x.name ∈ p.executed ↔ ∃ y ∈ p.done, y.Ran ∧ r.Reaches x.name y.name

/-- A registered task requires what it lists. -/
theorem Turn.requires_iff {t : Turn h r o} (hTask : t.task ∈ r.tasks) {dep : String} :
    r.Requires t.name dep ↔ dep ∈ t.task.dependsOn := by
  constructor
  · rintro ⟨task, hMem, hName, hDep⟩
    rwa [List.inj_on_of_nodup_map r.distinct hTask hMem hName.symm]
  · exact fun hDep => ⟨t.task, hTask, rfl, hDep⟩

section Hand

variable {done : List (Turn h r o)} {t : Turn h r o} {rest : List Task}
  (hPlan : r.IsPlan target plan)
  (hReached : Point.Reached plan s ⟨done, t.executed, t.task :: rest, t.world⟩)
  (hNoted : Point.Noted (⟨done, t.executed, t.task :: rest, t.world⟩ : Point h r o))

include hPlan hReached hNoted

/-- Something that the task at hand needs ran if one of its dependencies counts
as executed. -/
theorem needs_ran_iff : (∃ y ∈ done, y.Ran ∧ r.Needs t.name y.name) ↔
    ∃ dep ∈ t.task.dependsOn, dep ∈ t.executed := by
  have hTask := hReached.task_mem hPlan
  -- every dependency had its turn, so the invariant speaks of it
  have hExact : ∀ dep ∈ t.task.dependsOn,
      dep ∈ t.executed ↔ ∃ y ∈ done, y.Ran ∧ r.Reaches dep y.name := by
    intro dep hDep
    obtain ⟨x, hx, rfl⟩ := List.mem_map.mp (hReached.mem_names_of_mem_dependsOn hPlan hDep)
    exact hNoted.exact x hx
  constructor
  · rintro ⟨y, hy, hRan, hNeeds⟩
    obtain ⟨dep, hDep, hReaches⟩ := TransGen.head'_iff.mp hNeeds
    rw [Turn.requires_iff hTask] at hDep
    exact ⟨dep, hDep, (hExact dep hDep).mpr ⟨y, hy, hRan, hReaches⟩⟩
  · rintro ⟨dep, hDep, hExecuted⟩
    obtain ⟨y, hy, hRan, hReaches⟩ := (hExact dep hDep).mp hExecuted
    exact ⟨y, hy, hRan, TransGen.head'_iff.mpr ⟨dep, (Turn.requires_iff hTask).mpr hDep, hReaches⟩⟩

/-- A task is up to date only if nothing that it needs ran. -/
theorem not_needs_ran_of_upToDate (hCheck : t.view.check t.task = .ok .upToDate) :
    ¬ ∃ y ∈ done, y.Ran ∧ r.Needs t.name y.name := by
  rw [needs_ran_iff hPlan hReached hNoted]
  rintro ⟨dep, hDep, hExecuted⟩
  obtain ⟨_, _, -, -, hQuiet⟩ := Freshness.View.check_upToDate hCheck
  exact (hQuiet dep hDep dep .refl).1 hExecuted

/-- What a turn's outcome means for the tasks executed. -/
theorem mem_noted_iff {outcome : Outcome} (hResult : t.attempt.result = .ok outcome) :
    t.name ∈ outcome.noted t.task t.executed ↔
      t.Ran ∨ ∃ y ∈ done, y.Ran ∧ r.Needs t.name y.name := by
  have hNew : t.name ∉ t.executed := fun hMem =>
    hReached.name_not_mem hPlan (hNoted.handled _ hMem)
  have hCounts : t.name ∈ outcome.noted t.task t.executed ↔
      outcome.counts t.task t.executed = true := by
    unfold Outcome.noted
    split <;> simp_all [Turn.name]
  rw [hCounts]
  cases Turn.ended hResult with
  | executed _ _ _ _ _ _ hExit hSuccess =>
    have hRan : t.Ran := ⟨_, hExit, hSuccess⟩
    simp [Outcome.counts, hRan]
  | skipped hCheck hExit =>
    have hNone := not_needs_ran_of_upToDate hPlan hReached hNoted hCheck
    simpa [Outcome.counts, Turn.not_ran_of_exit? hExit] using hNone
  | aggregate _ _ hExit =>
    rw [needs_ran_iff hPlan hReached hNoted]
    simp [Outcome.counts, Turn.not_ran_of_exit? hExit]

end Hand

/-- **At every point of a run**, what counts as executed is noted. -/
theorem Point.Reached.noted (hPlan : r.IsPlan target plan) {p : Point h r o}
    (hReached : p.Reached plan s) : p.Noted := by
  induction hReached with
  | start => exact ⟨by simp, by simp⟩
  | @step done t rest outcome hBefore hResult ih =>
    have hAfter := hBefore.step hResult
    -- a turn adds no name but that of its own task
    have hOther : ∀ {n : String}, n ≠ t.name →
        (n ∈ outcome.noted t.task t.executed ↔ n ∈ t.executed) := by
      intro n hn
      unfold Outcome.noted
      split <;> simp_all [Turn.name]
    constructor
    · intro n hn
      by_cases hName : n = t.name
      · simp [hName]
      · rw [List.map_append]
        exact List.mem_append_left _ (ih.handled n ((hOther hName).mp hn))
    · intro x hx
      rcases List.mem_append.mp hx with hx | hx
      · -- nothing handled before needs the task at hand
        have hNot : ¬ r.Reaches x.name t.name := fun hReaches =>
          hBefore.name_not_mem hPlan (hBefore.mem_names_of_reaches hPlan hx hReaches)
        have hName : x.name ≠ t.name := fun hEq => hNot (hEq ▸ .refl)
        rw [hOther hName, ih.exact x hx]
        simp [exists_or, or_and_right, hNot]
      · obtain rfl : x = t := by simpa using hx
        rw [mem_noted_iff hPlan hBefore ih hResult]
        constructor
        · rintro (hRan | ⟨y, hy, hRan, hNeeds⟩)
          · exact ⟨x, by simp, hRan, .refl⟩
          · exact ⟨y, List.mem_append_left _ hy, hRan, hNeeds.to_reflTransGen⟩
        · rintro ⟨y, hy, hRan, hReaches⟩
          rcases List.mem_append.mp hy with hy | hy
          · rcases Relation.reflTransGen_iff_eq_or_transGen.mp hReaches with hName | hNeeds
            · exact absurd (hName ▸ List.mem_map_of_mem hy) (hBefore.name_not_mem hPlan)
            · exact .inr ⟨y, hy, hRan, hNeeds⟩
          · obtain rfl : y = x := by simpa using hy
            exact .inl hRan

/-- A task that was up to date in its turn needs nothing whose process ran, at
whatever point one looks. -/
theorem Point.Reached.not_needs_ran (hPlan : r.IsPlan target plan) {p : Point h r o}
    (hReached : p.Reached plan s) {x : Turn h r o} (hx : x ∈ p.done)
    (hCheck : x.view.check x.task = .ok .upToDate) {y : Turn h r o} (hy : y ∈ p.done)
    (hRan : y.Ran) : ¬ r.Needs x.name y.name := by
  intro hNeeds
  obtain ⟨before, after, hDone⟩ := List.append_of_mem hx
  have hBefore := hReached.before hDone
  -- what a task needs had its turn before
  have hFounded := hPlan.founded
  rw [← hBefore.names_eq] at hFounded
  obtain ⟨z, hz, hName⟩ := List.mem_map.mp (hFounded.mem_before hNeeds rfl)
  obtain rfl : z = y := by
    refine List.inj_on_of_nodup_map (hReached.names_nodup hPlan) ?_ hy hName
    simp [hDone, hz]
  exact not_needs_ran_of_upToDate hPlan hBefore (hBefore.noted hPlan) hCheck ⟨z, hz, hRan, hNeeds⟩

/--
**What counts as executed.** At every point of every run and for every task
handled, the task counts as executed exactly if its own process ran with
success or that of something it needs did, over any number of steps. And no task
is skipped that needs something whose process ran.
-/
theorem executed_iff (hPlan : r.plan target = .ok plan) {p : Point h r o}
    (hReached : p.Reached plan s) :
    (∀ x ∈ p.done, x.name ∈ p.executed ↔ ∃ y ∈ p.done, y.Ran ∧ r.Reaches x.name y.name) ∧
    ∀ x ∈ p.done, x.outcome? = some (.skipped x.name) →
      ∀ y ∈ p.done, y.Ran → ¬ r.Needs x.name y.name := by
  have hIsPlan := Registry.isPlan_of_plan hPlan
  refine ⟨(hReached.noted hIsPlan).exact, fun x hx hSkipped y hy hRan => ?_⟩
  exact hReached.not_needs_ran hIsPlan hx (Turn.check_of_skipped hSkipped) hy hRan

section Bundling

open Bundling

/-- With a library made and a bundle of it passed over, both count as executed,
one for its own process and one for what it needs. -/
theorem executed_iff_lib_bundle : ∃ p : Point host filed options,
    p.Reached [lib, bundle (.artifact ⟨"/bundle"⟩), app] broken ∧
      p.done.map Turn.name = ["lib", "bundle"] ∧ p.executed = ["bundle", "lib"] ∧
      ∀ x ∈ p.done, x.name ∈ p.executed ↔
        ∃ y ∈ p.done, y.Ran ∧ filed.Reaches x.name y.name := by
  have hPlan : filed.plan "app" = .ok [lib, bundle (.artifact ⟨"/bundle"⟩), app] := by cbv
  let made : Outcome := .executed "lib" ⟨.exited 0, [], []⟩
  let first : Turn host filed options := ⟨lib, [], broken⟩
  have hFirst : first.attempt.result = .ok made := by cbv
  let second : Turn host filed options :=
    ⟨bundle (.artifact ⟨"/bundle"⟩), made.noted lib [], first.attempt.world⟩
  have hSecond : second.attempt.result = .ok (.aggregate "bundle") := by cbv
  have hReached : Point.Reached [lib, bundle (.artifact ⟨"/bundle"⟩), app] broken
      (⟨[first, second], ["bundle", "lib"], [app], second.attempt.world⟩ :
        Point host filed options) :=
    (Point.Reached.start.step hFirst).step hSecond
  exact ⟨_, hReached, rfl, rfl, (executed_iff hPlan hReached).1⟩

end Bundling

end TaskMill
