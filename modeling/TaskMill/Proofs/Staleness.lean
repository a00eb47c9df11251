import TaskMill.Proofs.Freshness
/-!
# TaskMill — what makes a task stale

A name **shows** a change if it was executed, or if its artifact is there and
younger than the artifact in question. A dependency **carries** a change if one is
shown by a name that aggregates lead to from it, through any number of them and
around any circle.

Whether a task has to be performed is a matter of what its dependencies carry,
and nothing else: the order in which names are looked at, and that none is looked
at twice, decide only which refusal is met first.

## Results

* `changed_of_carries`, `readable_of_changed` — the look at one dependency finds a
  change exactly where one is carried.
* `check_tells` — when a task is told to be missing, up to date, or stale, and
  because of which dependency.
-/

namespace TaskMill.Freshness.View

open Relation (ReflTransGen)

variable {v : View} {since : Int} {dependency : String}

/-- Looked at by itself, a name shows a change younger than `since`. -/
def Shows (v : View) (since : Int) (name : String) : Prop :=
  name ∈ v.executed ∨ ∃ task path time, v.registry.get? name = some task ∧
    task.kind = .artifact path ∧ v.modified (v.root.join path) = .ok time ∧ since < time

/-- A change younger than `since` is shown by a dependency, or by a name that
aggregates lead to from it. -/
def Carries (v : View) (since : Int) (dependency : String) : Prop :=
  ∃ n, ReflTransGen v.registry.Beneath dependency n ∧ v.Shows since n

theorem quiet_iff {name : String} : v.Quiet since name ↔ ¬ v.Shows since name := by
  unfold Quiet Shows
  constructor
  · rintro ⟨hNot, hOld⟩ (hRan | ⟨task, path, time, hTask, hKind, hTime, hYoung⟩)
    · exact hNot hRan
    · have hLe := hOld task path hTask hKind time hTime
      omega
  · intro hNone
    refine ⟨fun hRan => hNone (.inl hRan), ?_⟩
    intro task path hTask hKind time hTime
    by_contra hYoung
    exact hNone (.inr ⟨task, path, time, hTask, hKind, hTime, by omega⟩)

theorem quiet_of_not_carries (h : ¬ v.Carries since dependency) {n : String}
    (hn : ReflTransGen v.registry.Beneath dependency n) : v.Quiet since n :=
  quiet_iff.mpr fun hShows => h ⟨n, hn, hShows⟩

-- ---------------------------------------------------------------------------
-- One dependency
-- ---------------------------------------------------------------------------

theorem Readable.single {dependencies : List String} (hReadable : v.Readable dependencies)
    (hMem : dependency ∈ dependencies) : v.Readable [dependency] := by
  intro d hd
  rw [List.mem_singleton.mp hd]
  exact hReadable dependency hMem

theorem changed_of_carries (hReadable : v.Readable [dependency])
    (hCarries : v.Carries since dependency) : v.changed since [dependency] [] = .ok true := by
  obtain ⟨found, hChanged⟩ := changed_eq_ok since hReadable
  cases found with
  | true => exact hChanged
  | false =>
    -- all beneath the dependency would be quiet
    obtain ⟨n, hn, hShows⟩ := hCarries
    exact absurd hShows (quiet_iff.mp (quiet_of_changed hChanged hn))

/-- Where no change is found, nothing was refused, and none is carried. -/
theorem readable_of_changed (h : v.changed since [dependency] [] = .ok false) :
    v.Readable [dependency] ∧ ¬ v.Carries since dependency := by
  constructor
  · intro d hd n task hn
    rw [List.mem_singleton.mp hd] at hn
    obtain ⟨all, hAll, hDone⟩ := exists_scanned_beneath h
    exact hDone.told n (hAll n hn) task
  · rintro ⟨n, hn, hShows⟩
    exact quiet_iff.mp (quiet_of_changed h hn) hShows

-- ---------------------------------------------------------------------------
-- All dependencies
-- ---------------------------------------------------------------------------

theorem firstChange_upToDate_iff {dependencies : List String} :
    v.firstChange since dependencies = .ok .upToDate ↔
      (∀ d ∈ dependencies, ¬ v.Carries since d) ∧ v.Readable dependencies := by
  constructor
  · intro h
    have hEach := firstChange_upToDate h
    constructor
    · intro d hd
      exact (readable_of_changed (hEach d hd).2).2
    · intro d hd
      exact (readable_of_changed (hEach d hd).2).1 d (by simp)
  · rintro ⟨hNone, hReadable⟩
    exact firstChange_of_quiet hReadable fun d hd _ hn => quiet_of_not_carries (hNone d hd) hn

/-- Told is the first dependency that carries a change. -/
theorem firstChange_of_carries {before after : List String}
    (hReadable : v.Readable (before ++ dependency :: after))
    (hBefore : ∀ b ∈ before, ¬ v.Carries since b) (hCarries : v.Carries since dependency) :
    v.firstChange since (before ++ dependency :: after) =
      .ok (if dependency ∈ v.executed then .dependencyRan dependency
        else .olderThan dependency) := by
  rw [firstChange_append (fun b hb => hReadable b (List.mem_append_left _ hb))
    fun b hb _ hn => quiet_of_not_carries (hBefore b hb) hn, firstChange]
  by_cases hRan : dependency ∈ v.executed
  · rw [if_pos hRan, if_pos hRan]
  · rw [if_neg hRan, if_neg hRan, changed_of_carries (hReadable.single (by simp)) hCarries]

-- ---------------------------------------------------------------------------
-- The task
-- ---------------------------------------------------------------------------

theorem artifactTime_eq_none_iff {path : Path} :
    v.artifactTime path = .ok none ↔ v.modified (v.root.join path) = .error .notFound := by
  unfold artifactTime
  cases hTime : v.modified (v.root.join path) with
  | ok t => simp [hTime]
  | error e => by_cases hNone : e = .notFound <;> simp [hTime, hNone]

theorem check_of_artifactTime {task : Task} {path : Path} (hKind : task.kind = .artifact path)
    (hTime : v.modified (v.root.join path) = .ok since) :
    v.check task = v.firstChange since task.dependsOn := by
  simp only [check, hKind, artifactTime_eq_some_iff.mpr hTime]

theorem firstChange_ne_missing {dependencies : List String} :
    v.firstChange since dependencies ≠ .ok .missing := by
  induction dependencies with
  | nil => simp [firstChange]
  | cons first rest ih =>
    rw [firstChange]
    by_cases hRan : first ∈ v.executed
    · simp [hRan]
    · rw [if_neg hRan]
      cases hChanged : v.changed since [first] [] with
      | error fault => simp
      | ok found =>
        cases found with
        | true => simp
        | false => exact ih

theorem check_missing_iff {task : Task} {path : Path} (hKind : task.kind = .artifact path) :
    v.check task = .ok .missing ↔ v.modified (v.root.join path) = .error .notFound := by
  rw [← artifactTime_eq_none_iff]
  simp only [check, hKind]
  cases hTime : v.artifactTime path with
  | error fault => simp
  | ok time =>
    cases time with
    | none => simp
    | some since => simp [firstChange_ne_missing]

theorem check_upToDate_iff {task : Task} {path : Path} (hKind : task.kind = .artifact path) :
    v.check task = .ok .upToDate ↔ ∃ since, v.modified (v.root.join path) = .ok since ∧
      (∀ d ∈ task.dependsOn, ¬ v.Carries since d) ∧ v.Readable task.dependsOn := by
  constructor
  · intro h
    obtain ⟨path', since, hKind', hTime, -⟩ := check_upToDate h
    obtain rfl : path = path' := by simpa [hKind] using hKind'
    rw [check_of_artifactTime hKind hTime] at h
    exact ⟨since, hTime, firstChange_upToDate_iff.mp h⟩
  · rintro ⟨since, hTime, hNone⟩
    rw [check_of_artifactTime hKind hTime]
    exact firstChange_upToDate_iff.mpr hNone

/--
**What a check tells of an artifact task.** In any registry, whatever circles or
unknown names it holds, and whatever was executed:

* the task is missing exactly if its own artifact is not there;
* it is up to date exactly if its artifact is there, none of its dependencies
  carries a change, and no time was refused beneath them;
* where no time is refused, the first dependency that carries a change is told, as
  having run if it was executed itself and as younger otherwise.
-/
theorem check_tells (v : View) {task : Task} {path : Path} (hKind : task.kind = .artifact path) :
    (v.check task = .ok .missing ↔ v.modified (v.root.join path) = .error .notFound) ∧
    (v.check task = .ok .upToDate ↔ ∃ since, v.modified (v.root.join path) = .ok since ∧
      (∀ d ∈ task.dependsOn, ¬ v.Carries since d) ∧ v.Readable task.dependsOn) ∧
    ∀ since, v.modified (v.root.join path) = .ok since → v.Readable task.dependsOn →
      ∀ before d after, task.dependsOn = before ++ d :: after →
        (∀ b ∈ before, ¬ v.Carries since b) → v.Carries since d →
          v.check task = .ok (if d ∈ v.executed then .dependencyRan d else .olderThan d) := by
  refine ⟨check_missing_iff hKind, check_upToDate_iff hKind, ?_⟩
  intro since hTime hReadable before d after hSplit hBefore hCarries
  rw [check_of_artifactTime hKind hTime, hSplit]
  exact firstChange_of_carries (hSplit ▸ hReadable) hBefore hCarries

-- ---------------------------------------------------------------------------
-- A circle of aggregates
-- ---------------------------------------------------------------------------

namespace Circle

/-- An application that was made after its tool, but before what an aggregate in a
circle with another one, and with a dependency that nobody knows, pulls in. -/
def app : Task :=
  { Task.phony "app" with kind := .artifact ⟨"app"⟩, dependsOn := ["tool", "all", "parts"] }

def tool : Task := { Task.phony "tool" with kind := .artifact ⟨"tool"⟩ }

def all : Task := { Task.phony "all" with dependsOn := ["ghost", "parts"] }

def parts : Task := { Task.phony "parts" with dependsOn := ["all", "lib"] }

def lib : Task := { Task.phony "lib" with kind := .artifact ⟨"lib"⟩ }

def view : View where
  registry := .ofDistinct [app, tool, all, parts, lib] (by decide)
  executed := []
  root := ⟨"/"⟩
  modified path :=
    if path = ⟨"/tool"⟩ then .ok 10
    else if path = ⟨"/app"⟩ then .ok 20
    else if path = ⟨"/lib"⟩ then .ok 30
    else .error .notFound

theorem readable (dependencies : List String) : view.Readable dependencies := by
  rintro d - n task - - ⟨path, error, -, hError, hOther⟩
  unfold view at hError
  simp only at hError
  split_ifs at hError
  exact hOther (Except.error.inj hError).symm

theorem not_carries_tool : ¬ view.Carries 20 "tool" := by
  rintro ⟨n, hn, hShows⟩
  have hTool : view.registry.get? "tool" = some tool := by decide
  rcases hn.cases_head with rfl | ⟨m, ⟨task, hTask, hAggregate, -⟩, -⟩
  · rcases hShows with hRan | ⟨task, path, time, hTask, hKind, hTime, hYoung⟩
    · cases hRan
    · obtain rfl : tool = task := by simpa [hTool] using hTask
      obtain rfl : (⟨"tool"⟩ : Path) = path := by simpa [tool] using hKind
      have hTen : view.modified (view.root.join ⟨"tool"⟩) = .ok 10 := by decide
      rw [hTen] at hTime
      obtain rfl := Except.ok.inj hTime
      omega
  · obtain rfl : tool = task := by simpa [hTool] using hTask
    exact absurd hAggregate (by decide)

theorem carries_all : view.Carries 20 "all" := by
  have hParts : view.registry.Beneath "all" "parts" := ⟨all, by decide, by decide, by decide⟩
  have hLib : view.registry.Beneath "parts" "lib" := ⟨parts, by decide, by decide, by decide⟩
  exact ⟨"lib", .tail (.single hParts) hLib,
    .inr ⟨lib, ⟨"lib"⟩, 30, by decide, rfl, by decide, by decide⟩⟩

end Circle

/-- The aggregate is told, though it was not executed and is not the last that
carries the change. -/
theorem check_tells_circle : Circle.app.kind = .artifact ⟨"app"⟩ ∧
    Circle.view.Carries 20 "all" ∧ Circle.view.check Circle.app = .ok (.olderThan "all") := by
  have hKind : Circle.app.kind = .artifact ⟨"app"⟩ := rfl
  have hTells := (check_tells Circle.view hKind).2.2
  refine ⟨hKind, Circle.carries_all, ?_⟩
  refine hTells 20 (by decide) (Circle.readable _) ["tool"] "all" ["parts"] rfl ?_
    Circle.carries_all
  intro b hb
  rw [List.mem_singleton.mp hb]
  exact Circle.not_carries_tool

end TaskMill.Freshness.View
