import TaskMill.Proofs.Executed
import TaskMill.Proofs.Tidy
/-!
# TaskMill — taking up a run again

A run that was stopped has forgotten what it executed when it is taken up
again; what is left are the times of the artifacts. On a tidy host these are
enough, as far as they are looked at.

They are looked at along **chains** of dependencies, and a chain from a task
down to one that ran before **carries** the change if nothing on it hides it.
What hides a change is an artifact task without an action: it is not performed,
so its artifact keeps its time, and the tasks beneath it are not looked at. It
does no harm where something beneath it is sure to run again.

## Results

* `stamp_le_of_upToDate` — what an up to date task has seen of times.
* `ranIn_of_carries` — a change that is carried is not lost.
* `rebuilt_of_carries` — the same of two runs, one taking up the other.
* `lost_rebuild` — a change that is hidden can be lost.
-/

namespace TaskMill

open Relation (ReflTransGen TransGen)

variable {σ : Type} {h : Host σ} {r : Registry} {o : RunOptions}

-- ---------------------------------------------------------------------------
-- Chains of dependencies
-- ---------------------------------------------------------------------------

/-- Each task of a list depends on the next. -/
abbrev DependencyChain : List Task → Prop := List.IsChain fun a b => b.name ∈ a.dependsOn

/-- A chain of dependencies from `x` down to one of the tasks that `ran`, on
which each artifact task without an action is followed by a task that is sure to
run again: one with an action that is phony or did not run. -/
structure Registry.Carries (r : Registry) (ran : List String) (x : Task) (chain : List Task) :
    Prop where
  registered : ∀ c ∈ chain, c ∈ r.tasks
  linked     : DependencyChain (x :: chain)
  ends       : ∃ e, chain.getLast? = some e ∧ e.name ∈ ran
  followed   : ∀ before c after, chain = before ++ c :: after →
    c.isPhony = false → c.action = none →
      ∃ d ∈ after, d.action.isSome = true ∧ (d.isPhony = true ∨ d.name ∉ ran)

namespace Registry.Carries

variable {ran : List String} {x : Task} {chain : List Task}

theorem needs (hx : x ∈ r.tasks) (hCarries : r.Carries ran x chain) :
    ∀ c ∈ chain, r.Needs x.name c.name := by
  have hNames : ((x :: chain).map Task.name).IsChain r.Requires := by
    rw [List.isChain_map]
    refine hCarries.linked.imp_of_mem_imp fun a b ha _ hDep => ⟨a, ?_, rfl, hDep⟩
    rcases List.mem_cons.mp ha with rfl | ha
    exacts [hx, hCarries.registered a ha]
  intro c hc
  exact transGen_of_isChain hNames c.name (List.mem_map_of_mem hc)

/-- What follows a task on a chain carries the change to that task. -/
theorem suffix {before after : List Task} {c : Task}
    (hCarries : r.Carries ran x (before ++ c :: after)) (hAfter : after ≠ []) :
    r.Carries ran c after where
  registered d hd := hCarries.registered d (by simp [hd])
  linked := by
    have hLinked := hCarries.linked
    rw [DependencyChain, ← List.cons_append] at hLinked
    exact hLinked.right_of_append
  ends := by
    obtain ⟨e, hLast, hRan⟩ := hCarries.ends
    refine ⟨e, ?_, hRan⟩
    rwa [List.getLast?_append_of_ne_nil _ (by simp), List.getLast?_cons_of_ne_nil hAfter] at hLast
  followed front d back hEq := hCarries.followed (before ++ c :: front) d back (by simp [hEq])

end Registry.Carries

/-- Down a chain of aggregates, each task is beneath the one before. -/
theorem beneath_of_chain {before : List Task} {x c : Task}
    (hChain : DependencyChain (x :: (before ++ [c])))
    (hAggregates : ∀ b ∈ before, b ∈ r.tasks ∧ b.isAggregate = true) :
    ∃ dep ∈ x.dependsOn, ReflTransGen r.Beneath dep c.name := by
  induction before generalizing x with
  | nil => exact ⟨c.name, (List.isChain_cons_cons.mp hChain).1, .refl⟩
  | cons b rest ih =>
    obtain ⟨hDep, hRest⟩ := List.isChain_cons_cons.mp hChain
    obtain ⟨⟨hMem, hAggregate⟩, hOthers⟩ := List.forall_mem_cons.mp hAggregates
    obtain ⟨dep, hBelow, hBeneath⟩ := ih hRest hOthers
    refine ⟨b.name, hDep, .head ⟨b, ?_, hAggregate, hBelow⟩ hBeneath⟩
    exact Registry.get?_eq_some_iff.mpr ⟨hMem, rfl⟩

/-- Where every task with an action on the chain has an artifact and ran, one of
them lies beneath a dependency of `x`. -/
theorem Registry.Carries.exists_beneath {ran : List String} {x : Task} {chain : List Task}
    (hCarries : r.Carries ran x chain)
    (hActive : ∀ c ∈ r.tasks, c.name ∈ ran → c.action.isSome = true)
    (hMade : ∀ c ∈ chain, c.action.isSome = true → c.isPhony = false ∧ c.name ∈ ran) :
    ∃ c ∈ chain, c.action.isSome = true ∧
      ∃ dep ∈ x.dependsOn, ReflTransGen r.Beneath dep c.name := by
  -- no task on the chain hides the change
  have hOpen : ∀ c ∈ chain, c.action = none → c.isAggregate = true := by
    intro c hc hNone
    obtain ⟨before, after, hEq⟩ := List.append_of_mem hc
    by_contra hHides
    have hArtifact : c.isPhony = false := by simpa [Task.isAggregate, hNone] using hHides
    obtain ⟨d, hd, hAction, hSure⟩ := hCarries.followed before c after hEq hArtifact hNone
    obtain ⟨hOwn, hRan⟩ := hMade d (by simp [hEq, hd]) hAction
    rcases hSure with hPhony | hOther
    · simp [hOwn] at hPhony
    · exact hOther hRan
  obtain ⟨e, hLast, hRan⟩ := hCarries.ends
  have hEnd := List.mem_of_getLast? hLast
  -- the first task with an action: all before it are aggregates
  obtain ⟨c, before, after, hBefore, hAction, rfl, -⟩ := List.exists_of_eraseP hEnd
    (p := fun d : Task => d.action.isSome) (hActive e (hCarries.registered e hEnd) hRan)
  have hLinked : DependencyChain ((x :: (before ++ [c])) ++ after) := by
    simpa using hCarries.linked
  refine ⟨c, by simp, hAction, beneath_of_chain hLinked.left_of_append fun b hb => ?_⟩
  refine ⟨hCarries.registered b (by simp [hb]), hOpen b (by simp [hb]) ?_⟩
  simpa using hBefore b hb

-- ---------------------------------------------------------------------------
-- What an up to date task has seen
-- ---------------------------------------------------------------------------

/-- The artifact of a quiet task is not younger than the one in question. -/
theorem stamp_le_of_quiet {t : Turn h r o} {since : Int} {c : Task} (hMem : c ∈ r.tasks)
    (hQuiet : t.view.Quiet since c.name) {u : Int} (hStamp : h.stamp? o t.ready c = some u) :
    u ≤ since := by
  obtain ⟨path, hKind, hTime⟩ := sighting?_eq_some_iff.mp (stamp?_eq_some_iff.mp hStamp)
  exact hQuiet.2 c path (Registry.get?_eq_some_iff.mpr ⟨hMem, rfl⟩) hKind u hTime

section Seen

variable {plan : List Task} {s : σ} {target : String} {p : Point h r o}
  (hTidy : h.Tidy r o) (hPlan : r.IsPlan target plan) (hReached : p.Reached plan s)

include hTidy hPlan hReached

/-- When it is a task's turn, the artifacts of all that do not run are as they
were when the run began. -/
theorem stamp?_ready {before after : List (Turn h r o)} {t : Turn h r o}
    (hDone : p.done = before ++ t :: after) {c : Task} (hMem : c ∈ r.tasks)
    (hNot : ¬ RanIn before c.name) : h.stamp? o t.ready c = h.stamp? o s c := by
  rw [← (hReached.before hDone).kept hTidy hPlan c hMem hNot]
  exact hTidy.elapsed t.world c hMem

/-- **What an up to date task has seen.** Its artifact was there when the run
began, and no artifact beneath its dependencies was younger. -/
theorem stamp_le_of_upToDate {t : Turn h r o} (ht : t ∈ p.done)
    (hCheck : t.view.check t.task = .ok .upToDate) {c : Task} (hMem : c ∈ r.tasks)
    (hNot : ¬ RanIn p.done c.name)
    (hBeneath : ∃ dep ∈ t.task.dependsOn, ReflTransGen r.Beneath dep c.name)
    {u : Int} (hStamp : h.stamp? o s c = some u) :
    ∃ since, h.stamp? o s t.task = some since ∧ u ≤ since := by
  obtain ⟨before, after, hDone⟩ := List.append_of_mem ht
  obtain ⟨path, since, hKind, hTime, hQuiet⟩ := Freshness.View.check_upToDate hCheck
  obtain ⟨dep, hDep, hReach⟩ := hBeneath
  have hAt := hReached.before hDone
  refine ⟨since, ?_, ?_⟩
  · have hSelf : ¬ RanIn before t.task.name := by
      rintro ⟨y, hy, -, hName⟩
      exact hAt.name_not_mem hPlan (List.mem_map.mpr ⟨y, hy, hName⟩)
    rw [← stamp?_ready hTidy hPlan hReached hDone (hAt.task_mem hPlan) hSelf]
    exact stamp?_eq_some_iff.mpr (sighting?_eq_some_iff.mpr ⟨path, hKind, hTime⟩)
  · have hOther : ¬ RanIn before c.name := by
      rintro ⟨y, hy, hRan⟩
      exact hNot ⟨y, by simp [hDone, hy], hRan⟩
    refine stamp_le_of_quiet hMem (hQuiet dep hDep c.name hReach) ?_
    rw [stamp?_ready hTidy hPlan hReached hDone hMem hOther]
    exact hStamp

end Seen

-- ---------------------------------------------------------------------------
-- A change that is carried is not lost
-- ---------------------------------------------------------------------------

/-- The tasks that `ran` have artifacts later than those of all others. -/
structure Host.Renewed (h : Host σ) (r : Registry) (o : RunOptions) (ran : List String) (s : σ) :
    Prop where
  active : ∀ c ∈ r.tasks, c.name ∈ ran → c.action.isSome = true
  later  : ∀ c ∈ r.tasks, c.name ∈ ran → c.isPhony = false →
    ∃ time, h.stamp? o s c = some time ∧
      ∀ x ∈ r.tasks, x.name ∉ ran → ∀ u, h.stamp? o s x = some u → u < time

section Carried

variable {plan : List Task} {s : σ} {target : String} {p : Point h r o}
  (hPlan : r.IsPlan target plan) (hReached : p.Reached plan s) (hRest : p.rest = [])

/-- At the end of a run, each task of the plan has had its turn. -/
theorem exists_turn (hReached : p.Reached plan s) (hRest : p.rest = []) {x : Task}
    (hx : x ∈ plan) : ∃ t ∈ p.done, t.task = x := by
  have hAll := hReached.plan_eq
  rw [hRest, List.append_nil] at hAll
  exact List.mem_map.mp (hAll ▸ hx)

/-- A task with an action that did not run was up to date in its turn. -/
theorem check_of_not_ranIn (hReached : p.Reached plan s) {t : Turn h r o} (ht : t ∈ p.done)
    (hAction : t.task.action.isSome = true) (hNot : ¬ RanIn p.done t.name) :
    t.view.check t.task = .ok .upToDate := by
  obtain ⟨outcome, hResult⟩ := hReached.ended t ht
  exact Turn.check_of_not_ran hResult hAction fun hRan => hNot ⟨t, ht, hRan, rfl⟩

include hPlan hReached hRest

/-- Where a task with an action does not run, neither does anything that it
needs, and no phony task with an action is among that. -/
theorem idle_of_not_ranIn {x : Task} (hx : x ∈ plan) (hAction : x.action.isSome = true)
    (hNot : ¬ RanIn p.done x.name) {c : Task} (hc : c ∈ r.tasks)
    (hNeeds : r.Needs x.name c.name) :
    ¬ RanIn p.done c.name ∧ (c.action.isSome = true → c.isPhony = false) := by
  obtain ⟨t, ht, rfl⟩ := exists_turn hReached hRest hx
  have hCheck := check_of_not_ranIn hReached ht hAction hNot
  have hIdle : ¬ RanIn p.done c.name := by
    rintro ⟨y, hy, hRan, hName⟩
    exact hReached.not_needs_ran hPlan ht hCheck hy hRan (hName ▸ hNeeds)
  refine ⟨hIdle, fun hActive => ?_⟩
  obtain ⟨u, hu, rfl⟩ := exists_turn hReached hRest
    (hPlan.mem_of_reaches hx hc hNeeds.to_reflTransGen)
  obtain ⟨path, -, hKind, -⟩ :=
    Freshness.View.check_upToDate (check_of_not_ranIn hReached hu hActive hIdle)
  simp [Task.isPhony, hKind, TaskKind.artifact?]

/-- **A change that is carried is not lost.** A task with an action that did not
run before runs now, if a chain carries the change of one that did. -/
theorem ranIn_of_carries {ran : List String} (hTidy : h.Tidy r o) (hRenewed : h.Renewed r o ran s)
    {x : Task} {chain : List Task} (hx : x ∈ plan) (hAction : x.action.isSome = true)
    (hNew : x.name ∉ ran) (hCarries : r.Carries ran x chain) : RanIn p.done x.name := by
  -- on the length of the chain: what is left of it carries the change to its tasks
  induction hLength : chain.length using Nat.strong_induction_on generalizing x chain with
  | _ n ih =>
    by_contra hNot
    have hMem := hPlan.registered x hx
    have hIdle := fun c (hc : c ∈ chain) => idle_of_not_ranIn hPlan hReached hRest hx hAction hNot
      (hCarries.registered c hc) (hCarries.needs hMem c hc)
    -- what has an action on the chain ran before, or it would run now
    have hMade : ∀ c ∈ chain, c.action.isSome = true → c.isPhony = false ∧ c.name ∈ ran := by
      intro c hc hActive
      refine ⟨(hIdle c hc).2 hActive, ?_⟩
      obtain ⟨before, after, rfl⟩ := List.append_of_mem hc
      by_contra hOther
      have hAfter : after ≠ [] := by
        rintro rfl
        obtain ⟨e, hLast, hRan⟩ := hCarries.ends
        obtain rfl : c = e := by simpa using hLast
        exact hOther hRan
      refine (hIdle c hc).1 (ih after.length ?_ ?_ hActive hOther (hCarries.suffix hAfter) rfl)
      · simp only [← hLength, List.length_append, List.length_cons]
        omega
      · exact hPlan.mem_of_reaches hx (hCarries.registered c hc)
          (hCarries.needs hMem c hc).to_reflTransGen
    -- so the change is seen, and it is younger
    obtain ⟨c, hc, hActive, hBeneath⟩ := hCarries.exists_beneath hRenewed.active hMade
    have hRegistered := hCarries.registered c hc
    obtain ⟨hArtifact, hRan⟩ := hMade c hc hActive
    obtain ⟨time, hTime, hLater⟩ := hRenewed.later c hRegistered hRan hArtifact
    obtain ⟨t, ht, rfl⟩ := exists_turn hReached hRest hx
    obtain ⟨since, hSince, hLe⟩ := stamp_le_of_upToDate hTidy hPlan hReached ht
      (check_of_not_ranIn hReached ht hAction hNot) hRegistered (hIdle c hc).1 hBeneath hTime
    have hLt := hLater t.task hMem hNew since hSince
    omega

end Carried

-- ---------------------------------------------------------------------------
-- One run after another
-- ---------------------------------------------------------------------------

section Final

variable {plan : List Task} {s : σ} {target : String} {p : Point h r o}

/-- Nothing ran in the turn at which a run stops. -/
theorem ranIn_turns_iff (hLast : p.IsLast) {name : String} :
    RanIn p.turns name ↔ RanIn p.done name := by
  rw [Point.turns]
  cases hTurn : p.turn? with
  | none => simp
  | some t => simp [ranIn_concat, hLast.not_ran hTurn]

/-- Nor was anything touched. -/
theorem sameStamps_final (hTidy : h.Tidy r o) (hPlan : r.IsPlan target plan)
    (hReached : p.Reached plan s) (hLast : p.IsLast) : h.SameStamps r o p.world p.final := by
  cases hTurn : p.turn? with
  | none =>
    rw [Point.final, hTurn]
    exact .refl _
  | some t =>
    have hWorld : t.world = p.world := by
      obtain ⟨task, -, rfl⟩ := Option.map_eq_some_iff.mp hTurn
      rfl
    have hTask : t.task ∈ r.tasks := by
      refine hPlan.registered t.task (hReached.turns_isPrefix.subset (List.mem_map_of_mem ?_))
      simp [Point.turns, hTurn]
    rw [Point.final, hTurn, ← hWorld]
    exact (Turn.sameStamps_of_not_ran hTidy hTask (hLast.not_ran hTurn)).trans (hTidy.elapsed _)

/-- What a run leaves behind, however it ended. -/
theorem renewed_final (hTidy : h.Tidy r o) (hPlan : r.IsPlan target plan)
    (hReached : p.Reached plan s) (hLast : p.IsLast) {ran : List String}
    (hRan : ∀ n, n ∈ ran ↔ RanIn p.turns n) : h.Renewed r o ran p.final where
  active c hc hIn := by
    obtain ⟨t, ht, hTurn, hName⟩ := (hRan c.name).mp hIn
    have hTask : t.task ∈ r.tasks :=
      hPlan.registered t.task (hReached.turns_isPrefix.subset (List.mem_map_of_mem ht))
    obtain rfl : t.task = c := List.inj_on_of_nodup_map r.distinct hTask hc hName
    exact Turn.action_isSome_of_ran hTurn
  later c hc hIn hArtifact := by
    simp only [hRan, ranIn_turns_iff hLast] at hIn ⊢
    have hSame := sameStamps_final hTidy hPlan hReached hLast
    obtain ⟨time, hTime, hLater⟩ := hReached.renewed hTidy hPlan c hc hIn hArtifact
    refine ⟨time, (hSame c hc).trans hTime, fun x hx hNot u hu => hLater x hx hNot u ?_⟩
    rwa [hSame x hx] at hu

end Final

/-- Only the directory that artifacts are seen from matters for their times. -/
theorem stamp?_congr {o' : RunOptions} (hRoot : o'.root = o.root) (s : σ) (task : Task) :
    h.stamp? o' s task = h.stamp? o s task := by
  rw [Host.stamp?, Host.stamp?, RunOptions.artifactOf, RunOptions.artifactOf, hRoot]

theorem Host.Renewed.congr {o' : RunOptions} {ran : List String} {s t : σ}
    (hRenewed : h.Renewed r o ran s) (hRoot : o'.root = o.root) (hSame : h.SameStamps r o s t) :
    h.Renewed r o' ran t where
  active := hRenewed.active
  later c hc hIn hArtifact := by
    obtain ⟨time, hTime, hLater⟩ := hRenewed.later c hc hIn hArtifact
    refine ⟨time, ?_, fun x hx hNot u hu => hLater x hx hNot u ?_⟩
    · rw [stamp?_congr hRoot, hSame c hc, hTime]
    · rwa [stamp?_congr hRoot, hSame x hx] at hu

-- ---------------------------------------------------------------------------
-- A change that is carried, and one that is hidden
-- ---------------------------------------------------------------------------

section Bundling

open Bundling

theorem take_lib_mended (kind : TaskKind) :
    host.take (registry kind) options [] lib mended =
      ⟨.ok (.skipped "lib"), [.event (.task (.skipped "lib" Freshness.upToDate.reason))], [],
        mended⟩ :=
  Turn.attempt_of_upToDate (r := registry kind) ⟨lib, [], mended⟩ rfl (by cbv)

theorem noted_skipped (name : String) (task : Task) (executed : List String) :
    (Outcome.skipped name).noted task executed = executed :=
  rfl

theorem noted_bundle (kind : TaskKind) : (Outcome.aggregate "bundle").noted (bundle kind) [] = [] :=
  rfl

/-- Taking up the run skips the program if the bundle is a file. -/
theorem run_filed_mended : (host.run filed options "app" mended).result =
    .ok ⟨"app", [.skipped "lib", .aggregate "bundle", .skipped "app"], 0⟩ := by
  have hPlan : filed.plan "app" = .ok [lib, bundle (.artifact ⟨"/bundle"⟩), app] := by cbv
  have hLib : host.take filed options [] lib mended = _ := take_lib_mended _
  have hBundle : host.take filed options [] (bundle (.artifact ⟨"/bundle"⟩)) mended =
      ⟨.ok (.aggregate "bundle"), [], [], mended⟩ := by cbv
  have hApp : host.take filed options [] app mended = _ :=
    Turn.attempt_of_upToDate (r := filed) ⟨app, [], mended⟩ rfl (by cbv)
  simp only [Host.run, hPlan, Host.walk, hLib, noted_skipped, hBundle, noted_bundle, hApp]
  rfl

/-- Taking up the run performs the program if the bundle is but a name. -/
theorem run_named_mended : (host.run named options "app" mended).result =
    .ok ⟨"app", [.skipped "lib", .aggregate "bundle", .executed "app" ⟨.exited 0, [], []⟩], 0⟩ := by
  have hPlan : named.plan "app" = .ok [lib, bundle .phony, app] := by cbv
  have hLib : host.take named options [] lib mended = _ := take_lib_mended _
  have hBundle : host.take named options [] (bundle .phony) mended =
      ⟨.ok (.aggregate "bundle"), [], [], mended⟩ := by cbv
  have hApp : (host.take named options [] app mended).result =
      .ok (.executed "app" ⟨.exited 0, [], []⟩) := by cbv
  simp only [Host.run, hPlan, Host.walk, hLib, noted_skipped, hBundle, noted_bundle, hApp]
  rfl

end Bundling

-- ---------------------------------------------------------------------------
-- No rebuild that is carried is lost
-- ---------------------------------------------------------------------------

/--
**No rebuild that is carried is lost.** On a tidy host, let a first run of a
target end however it does, and let a second run of the same target, with no
artifact touched in between, end well. Then a task of the plan that has an
action and did not run in the first run runs in the second, if a chain carries
to it the change of a task that ran in the first.

The second run may have other limits, and capture otherwise, than the first.
-/
theorem rebuilt_of_carries {o' : RunOptions} (hTidy : h.Tidy r o) (hTidy' : h.Tidy r o')
    (hRoot : o'.root = o.root) {target : String} {plan : List Task}
    (hPlan : r.plan target = .ok plan) {s s' : σ}
    (hBetween : h.SameStamps r o (h.run r o target s).world s') {report : Report}
    (hSecond : (h.run r o' target s').result = .ok report)
    {x : Task} (hx : x ∈ plan) (hAction : x.action.isSome = true)
    (hNew : x.name ∉ h.executedIn r o target s) {chain : List Task}
    (hCarries : r.Carries (h.executedIn r o target s) x chain) :
    x.name ∈ report.executed := by
  have hIsPlan := Registry.isPlan_of_plan hPlan
  obtain ⟨p, hReached, hLast, hWorld, -, -, hRan⟩ := run_of_plan (h := h) (o := o) hPlan s
  obtain ⟨q, hReached', hLast', -, hResult, -, -⟩ := run_of_plan (h := h) (o := o') hPlan s'
  have hRenewed : h.Renewed r o (h.executedIn r o target s) (h.run r o target s).world := by
    rw [hWorld]
    exact renewed_final hTidy hIsPlan hReached hLast fun n => by rw [hRan, mem_names_executed_iff]
  rw [hSecond] at hResult
  cases hFault : q.fault? with
  | some fault => simp [hFault] at hResult
  | none =>
    rw [hFault] at hResult
    obtain rfl := Except.ok.inj hResult
    rw [Report.executed, mem_names_executed_iff, ranIn_turns_iff hLast']
    exact ranIn_of_carries hIsPlan hReached' (hLast'.rest_eq_nil hFault) hTidy'
      (hRenewed.congr hRoot hBetween) hx hAction hNew hCarries

section Bundling

open Bundling

/-- Between the two runs nothing is touched. -/
theorem sameStamps_mended (kind : TaskKind)
    (hWorld : (host.run (registry kind) options "app" broken).world =
      { mended with broken := broken.broken }) :
    host.SameStamps (registry kind) options (host.run (registry kind) options "app" broken).world
      mended := by
  rw [hWorld]
  exact fun _ _ => rfl

/-- The library is made, the program fails, and taking up the run makes it. -/
theorem rebuilt_app :
    (host.run named options "app" broken).result = .error (.taskFailed "app" (some 1) none) ∧
      ∃ report, (host.run named options "app" mended).result = .ok report ∧
        "app" ∈ report.executed := by
  have hTidy : host.Tidy named options := Ledger.tidy (by decide) (by decide)
  have hPlan : named.plan "app" = .ok [lib, bundle .phony, app] := by cbv
  have hRan : host.executedIn named options "app" broken = ["lib"] := by cbv
  have hNew : app.name ∉ host.executedIn named options "app" broken := by simp [hRan, app]
  have hCarries : named.Carries (host.executedIn named options "app" broken) app
      [bundle .phony, lib] := {
    registered := by simp [named, registry]
    linked := by simp [DependencyChain, app, bundle, lib]
    ends := ⟨lib, rfl, by simp [hRan, lib]⟩
    followed := by
      intro before c after hEq hArtifact hNone
      have hc : c ∈ [bundle .phony, lib] := by simp [hEq]
      simp only [List.mem_cons, List.not_mem_nil, or_false] at hc
      rcases hc with rfl | rfl
      · cases hArtifact
      · cases hNone }
  refine ⟨by cbv, _, run_named_mended, ?_⟩
  exact rebuilt_of_carries hTidy hTidy rfl hPlan (sameStamps_mended .phony (by cbv))
    run_named_mended (by simp) rfl hNew hCarries

/--
**A change that is hidden can be lost.** The library is made, the program fails,
and taking up the run skips the program, though it depends on the library that
was made: the bundle between them is a file that no command makes, and older
than the program.
-/
theorem lost_rebuild :
    filed.check = .ok () ∧ host.Tidy filed options ∧
      (filed.tasks.filterMap options.artifactOf).Nodup ∧
      filed.plan "app" = .ok [lib, bundle (.artifact ⟨"/bundle"⟩), app] ∧
      app.action = some ⟨"make app", []⟩ ∧ filed.Needs "app" "lib" ∧
      (host.run filed options "app" broken).result = .error (.taskFailed "app" (some 1) none) ∧
      host.executedIn filed options "app" broken = ["lib"] ∧
      host.SameStamps filed options (host.run filed options "app" broken).world mended ∧
      (host.run filed options "app" mended).result =
        .ok ⟨"app", [.skipped "lib", .aggregate "bundle", .skipped "app"], 0⟩ := by
  refine ⟨by cbv, Ledger.tidy (by decide) (by decide), by decide, by cbv, rfl, ?_, by cbv, by cbv,
    sameStamps_mended (.artifact ⟨"/bundle"⟩) (by cbv), run_filed_mended⟩
  refine .tail (.single ⟨app, ?_, rfl, ?_⟩) ⟨bundle (.artifact ⟨"/bundle"⟩), ?_, rfl, ?_⟩ <;>
    simp [filed, registry, app, bundle]

end Bundling

end TaskMill
