import TaskMill.Proofs.Resumption
import TaskMill.Proofs.Staleness
/-!
# TaskMill — what an old artifact is older than

An artifact is told to be older than that of a dependency where a change is found
in the dependency, or beneath it if it is an aggregate, though the dependency was
not executed itself. On its own, a look at freshness may find that change in two
ways: something beneath was executed, or has a younger artifact.

In a run it is always the latter. What counts as executed is closed under all
that was handled above it (`Point.Noted.closed`), so a dependency that does not
count as executed has nothing beneath it that does (`not_mem_executed_of_reaches`).
A look that takes no account of what was executed then finds the same
(`changed_unmindful`).

## Results

* `check_olderThan` — which look at which dependency makes an artifact too old.
* `olderThan_tells_artifact` — in a run there is a younger artifact behind it, and
  nothing ran that the dependency needs.
-/

namespace TaskMill

open Relation (ReflTransGen)

-- ---------------------------------------------------------------------------
-- One look
-- ---------------------------------------------------------------------------

namespace Freshness.View

variable {v : View} {since : Int} {dependency : String}

/-- The artifact of a name is there, and younger than `since`. -/
def Younger (v : View) (since : Int) (name : String) : Prop :=
  ∃ task path time, v.registry.get? name = some task ∧ task.kind = .artifact path ∧
    v.modified (v.root.join path) = .ok time ∧ since < time

/-- What a look sees that takes no account of what was executed. -/
def unmindful (v : View) : View := { v with executed := [] }

@[simp] theorem unmindful_executed : v.unmindful.executed = [] := rfl

@[simp] theorem unmindful_registry : v.unmindful.registry = v.registry := rfl

@[simp] theorem artifactTime_unmindful {path : Path} :
    v.unmindful.artifactTime path = v.artifactTime path := rfl

theorem younger_of_shows {name : String} (hShows : v.Shows since name)
    (hNot : name ∉ v.executed) : v.Younger since name :=
  hShows.resolve_left hNot

/-- Where a change is found in a dependency, one is carried by it. -/
theorem carries_of_changed (h : v.changed since [dependency] [] = .ok true) :
    v.Carries since dependency := by
  have hDue := v.dueTo_changed since [dependency] []
  rw [h] at hDue
  obtain ⟨d, hd, n, hn, hLoud⟩ := hDue
  obtain rfl := List.mem_singleton.mp hd
  refine ⟨n, hn, ?_⟩
  by_contra hNone
  exact hLoud (quiet_iff.mpr hNone)

theorem firstChange_olderThan {dependencies : List String}
    (h : v.firstChange since dependencies = .ok (.olderThan dependency)) :
    dependency ∈ dependencies ∧ dependency ∉ v.executed ∧
      v.changed since [dependency] [] = .ok true := by
  induction dependencies with
  | nil => simp [firstChange] at h
  | cons first rest ih =>
    rw [firstChange] at h
    by_cases hRan : first ∈ v.executed
    · simp [hRan] at h
    · rw [if_neg hRan] at h
      cases hChanged : v.changed since [first] [] with
      | error fault => simp [hChanged] at h
      | ok found =>
        rw [hChanged] at h
        cases found with
        | true =>
          obtain rfl : first = dependency := by simpa using h
          exact ⟨List.mem_cons_self, hRan, hChanged⟩
        | false =>
          obtain ⟨hMem, hOther⟩ := ih h
          exact ⟨List.mem_cons_of_mem _ hMem, hOther⟩

/-- **What being older than a dependency means.** The artifact is there, the
dependency was not executed itself, and a change is found in it by itself. -/
theorem check_olderThan {task : Task} (h : v.check task = .ok (.olderThan dependency)) :
    ∃ path since, task.kind = .artifact path ∧ v.modified (v.root.join path) = .ok since ∧
      dependency ∈ task.dependsOn ∧ dependency ∉ v.executed ∧
      v.changed since [dependency] [] = .ok true := by
  unfold check at h
  split at h
  case h_1 => simp at h
  case h_2 path hKind =>
    split at h
    case h_1 => simp at h
    case h_2 => simp at h
    case h_3 since hTime =>
      exact ⟨path, since, hKind, artifactTime_eq_some_iff.mp hTime, firstChange_olderThan h⟩

/-- What the look at a new name comes to that was not executed. -/
theorem changed_cons {name : String} {later seen : List String} (hNot : name ∉ v.executed)
    (hNew : name ∉ seen) : v.changed since (name :: later) seen =
      match v.registry.get? name with
      | none => v.changed since later (seen ++ [name])
      | some task =>
        match task.kind with
        | .artifact path =>
          match v.artifactTime path with
          | .error fault => .error fault
          | .ok time =>
            if time.any (since < ·) then .ok true else v.changed since later (seen ++ [name])
        | .phony =>
          v.changed since ((if task.isAggregate then task.dependsOn else []) ++ later)
            (seen ++ [name]) := by
  rw [changed, if_neg hNot, dif_neg hNew]
  split
  case h_1 hUnknown =>
    rw [Registry.lookup_catalogue] at hUnknown
    simp only [hUnknown]
  case h_2 task hFound =>
    rw [Registry.lookup_catalogue] at hFound
    cases hKind : task.kind with
    | phony => simp only [hFound, hKind]
    | artifact path =>
      cases hTime : v.artifactTime path with
      | error fault => simp only [hFound, hKind, hTime]
      | ok time => simp only [hFound, hKind, hTime]

/-- What was executed decides nothing where none of it is on the agenda or
beneath. -/
theorem changed_unmindful {agenda seen : List String}
    (hNone : ∀ a ∈ agenda, ∀ n, ReflTransGen v.registry.Beneath a n → n ∉ v.executed) :
    v.unmindful.changed since agenda seen = v.changed since agenda seen := by
  fun_induction changed v since agenda seen with
  | case1 => rw [changed]
  | case2 _ name _ hRan => exact absurd hRan (hNone name (by simp) name .refl)
  | case3 seen name later _ hSeen ih =>
    have hLater := ih fun a ha => hNone a (List.mem_cons_of_mem _ ha)
    simp [changed, hSeen, hLater]
  | case4 seen name later _ hNew hUnknown ih =>
    rw [Registry.lookup_catalogue] at hUnknown
    have hLater := ih fun a ha => hNone a (List.mem_cons_of_mem _ ha)
    simp [changed_cons, hNew, hUnknown, hLater]
  | case5 seen name later _ hNew task hFound path hKind fault hTime =>
    rw [Registry.lookup_catalogue] at hFound
    simp [changed_cons, hNew, hFound, hKind, hTime]
  | case6 seen name later _ hNew task hFound path hKind time hTime hYoung =>
    rw [Registry.lookup_catalogue] at hFound
    simp [changed_cons, hNew, hFound, hKind, hTime, hYoung]
  | case7 seen name later _ hNew task hFound path hKind time hTime hOld ih =>
    rw [Registry.lookup_catalogue] at hFound
    have hLater := ih fun a ha => hNone a (List.mem_cons_of_mem _ ha)
    simp [changed_cons, hNew, hFound, hKind, hTime, hOld, hLater]
  | case8 seen name later _ hNew task hFound hKind beneath ih =>
    rw [Registry.lookup_catalogue] at hFound
    rw [changed_cons (by simp) hNew]
    simp only [unmindful_registry, hFound, hKind]
    refine ih fun a ha n hn => ?_
    rcases List.mem_append.mp ha with ha | ha
    · cases hAggregate : task.isAggregate with
      | true =>
        -- what lies beneath the aggregate lies beneath its name
        have hDep : a ∈ task.dependsOn := by simpa [beneath, hAggregate] using ha
        exact hNone name (by simp) n (.head ⟨task, hFound, hAggregate, hDep⟩ hn)
      | false => simp [beneath, hAggregate] at ha
    · exact hNone a (List.mem_cons_of_mem _ ha) n hn

end Freshness.View

-- ---------------------------------------------------------------------------
-- A run
-- ---------------------------------------------------------------------------

variable {σ : Type} {h : Host σ} {r : Registry} {o : RunOptions}
variable {plan : List Task} {s : σ} {target : String}

/-- Whatever was handled and needs something that counts as executed does so
itself. -/
theorem Point.Noted.closed {p : Point h r o} (hNoted : p.Noted) {x : Turn h r o}
    (hx : x ∈ p.done) {n : String} (hn : n ∈ p.executed) (hReaches : r.Reaches x.name n) :
    x.name ∈ p.executed := by
  obtain ⟨z, hz, rfl⟩ := List.mem_map.mp (hNoted.handled n hn)
  obtain ⟨y, hy, hRan, hNeeds⟩ := (hNoted.exact z hz).mp hn
  exact (hNoted.exact x hx).mpr ⟨y, hy, hRan, hReaches.trans hNeeds⟩

theorem Point.Reached.step_of_attempt {done : List (Turn h r o)} {t : Turn h r o}
    {rest : List Task} {outcome : Outcome} {emissions late : List Emission} {w : σ}
    (hReached : Point.Reached plan s ⟨done, t.executed, t.task :: rest, t.world⟩)
    (hAttempt : t.attempt = ⟨.ok outcome, emissions, late, w⟩) :
    Point.Reached plan s ⟨done ++ [t], outcome.noted t.task t.executed, rest, w⟩ := by
  have hResult : t.attempt.result = .ok outcome := by rw [hAttempt]
  have hStep := hReached.step hResult
  rwa [hAttempt] at hStep

section Hand

variable {p : Point h r o} {t : Turn h r o} {dep : String}
  (hPlan : r.IsPlan target plan) (hReached : p.Reached plan s) (hTurn : p.turn? = some t)
  (hDep : dep ∈ t.task.dependsOn) (hNot : dep ∉ t.executed)

include hPlan hReached hTurn hDep hNot

/-- A dependency of the task at hand that does not count as executed needs nothing
that does. -/
theorem not_mem_executed_of_reaches {n : String} (hReaches : r.Reaches dep n) :
    n ∉ t.executed := by
  obtain ⟨rest, hp⟩ := Point.eq_of_turn? hTurn
  rw [hp] at hReached
  -- the dependency had its turn, so what is above it is noted
  obtain ⟨x, hx, rfl⟩ := List.mem_map.mp (hReached.mem_names_of_mem_dependsOn hPlan hDep)
  exact fun hn => hNot ((hReached.noted hPlan).closed hx hn hReaches)

/-- Nor does it need anything whose process ran. -/
theorem not_ran_of_reaches {y : Turn h r o} (hy : y ∈ p.done) (hRan : y.Ran) :
    ¬ r.Reaches dep y.name := by
  intro hReaches
  have hSelf : y.name ∈ p.executed :=
    ((hReached.noted hPlan).exact y hy).mpr ⟨y, hy, hRan, .refl⟩
  rw [Point.executed_of_turn? hTurn] at hSelf
  exact not_mem_executed_of_reaches hPlan hReached hTurn hDep hNot hReaches hSelf

end Hand

/--
**What an artifact is told to be older than.** In a run, whatever its host does,
the tasks that count as executed are closed under those handled above them. So
nothing beneath a dependency counts as executed that does not do so itself, and
whether anything was executed never decides the look at it.

If the artifact of the task at hand is told to be older than that of a dependency,
there is an artifact task that aggregates lead to from the dependency, with an
artifact younger than the task's own; and no process ran in the run that the
dependency needs, its own included.
-/
theorem olderThan_tells_artifact (hPlan : r.plan target = .ok plan) {p : Point h r o}
    (hReached : p.Reached plan s) {t : Turn h r o} (hTurn : p.turn? = some t) :
    (∀ x ∈ p.done, ∀ n ∈ t.executed, r.Reaches x.name n → x.name ∈ t.executed) ∧
    (∀ dep ∈ t.task.dependsOn, dep ∉ t.executed →
      (∀ n, ReflTransGen r.Beneath dep n → n ∉ t.executed) ∧
      ∀ since, t.view.unmindful.changed since [dep] [] = t.view.changed since [dep] []) ∧
    ∀ dep, t.view.check t.task = .ok (.olderThan dep) →
      dep ∈ t.task.dependsOn ∧ dep ∉ t.executed ∧
      (∃ path since, t.task.kind = .artifact path ∧
        t.view.modified (t.view.root.join path) = .ok since ∧
        ∃ n, ReflTransGen r.Beneath dep n ∧ t.view.Younger since n) ∧
      ∀ y ∈ p.done, y.Ran → ¬ r.Reaches dep y.name := by
  have hIsPlan := Registry.isPlan_of_plan hPlan
  have hBeneath : ∀ dep ∈ t.task.dependsOn, dep ∉ t.executed →
      ∀ n, ReflTransGen r.Beneath dep n → n ∉ t.executed := fun dep hDep hNot n hn =>
    not_mem_executed_of_reaches hIsPlan hReached hTurn hDep hNot (Registry.reaches_of_beneath hn)
  refine ⟨?_, ?_, ?_⟩
  · rw [← Point.executed_of_turn? hTurn]
    exact fun x hx n hn hReaches => (hReached.noted hIsPlan).closed hx hn hReaches
  · intro dep hDep hNot
    refine ⟨hBeneath dep hDep hNot, fun since => ?_⟩
    refine Freshness.View.changed_unmindful fun a ha n hn => ?_
    obtain rfl := List.mem_singleton.mp ha
    exact hBeneath a hDep hNot n hn
  · intro dep hCheck
    obtain ⟨path, since, hKind, hTime, hDep, hNot, hChanged⟩ :=
      Freshness.View.check_olderThan hCheck
    obtain ⟨n, hn, hShows⟩ := Freshness.View.carries_of_changed hChanged
    refine ⟨hDep, hNot, ⟨path, since, hKind, hTime, n, hn, ?_⟩, ?_⟩
    · exact Freshness.View.younger_of_shows hShows (hBeneath dep hDep hNot n hn)
    · exact fun y hy hRan => not_ran_of_reaches hIsPlan hReached hTurn hDep hNot hy hRan

section Bundling

open Bundling

/-- A program that is older than its library is told to be older than the bundle
of it, though the library was skipped. -/
theorem olderThan_tells_artifact_bundle :
    ∃ (p : Point host named options) (t : Turn host named options),
      p.Reached [lib, bundle .phony, app] mended ∧ p.turn? = some t ∧
      t.view.check t.task = .ok (.olderThan "bundle") ∧
      (∃ since n, ReflTransGen named.Beneath "bundle" n ∧ t.view.Younger since n) ∧
      ∀ y ∈ p.done, y.Ran → ¬ named.Reaches "bundle" y.name := by
  have hPlan : named.plan "app" = .ok [lib, bundle .phony, app] := by cbv
  let first : Turn host named options := ⟨lib, [], mended⟩
  let second : Turn host named options := ⟨bundle .phony, [], mended⟩
  let third : Turn host named options := ⟨app, [], mended⟩
  have hLib : first.attempt = _ := take_lib_mended _
  have hBundle : second.attempt = ⟨.ok (.aggregate "bundle"), [], [], mended⟩ := by cbv
  have hFirst : Point.Reached [lib, bundle .phony, app] mended
      (⟨[first], [], [bundle .phony, app], mended⟩ : Point host named options) :=
    Point.Reached.start.step_of_attempt (t := first) hLib
  have hSecond : Point.Reached [lib, bundle .phony, app] mended
      (⟨[first, second], [], [app], mended⟩ : Point host named options) :=
    hFirst.step_of_attempt (t := second) hBundle
  have hCheck : third.view.check third.task = .ok (.olderThan "bundle") := by cbv
  obtain ⟨-, -, ⟨_, since, -, -, hYounger⟩, hNone⟩ :=
    (olderThan_tells_artifact hPlan hSecond (t := third) rfl).2.2 "bundle" hCheck
  exact ⟨_, third, hSecond, rfl, hCheck, ⟨since, hYounger⟩, hNone⟩

end Bundling

end TaskMill
