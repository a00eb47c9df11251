import TaskMill.Command.Execute
import TaskMill.Proofs.Fallible
import TaskMill.Proofs.Plan
/-!
# TaskMill — what a check of a registry finds

A check looks at all tasks at once. It searches one graph that holds every
task, where planning searches a graph of its own for each name. Both come to the
same: a check finds nothing exactly if every registered name has a plan.

A registry is **complete** if every name that a task lists is registered. In one
that is not, there is a first task that lists a missing name, and a first such
name on its list; these two are told (`FirstMissing`). Only in a complete
registry does a check go on to tell a cycle.

A project has been checked. So what keeps one of its tasks from being planned
can only be a request for a name that is not registered.

## Results

* `check_verdict` — the three things that a check can come to.
* `check_eq_ok_iff` — no fault is found exactly if every task can be planned.
* `check_agrees_with_plans` — all this together, and what follows for projects.
-/

namespace TaskMill

open Relation (ReflTransGen TransGen)

namespace Registry

variable {r : Registry} {name : String}

-- ---------------------------------------------------------------------------
-- The graph of all tasks
-- ---------------------------------------------------------------------------

theorem foldl_add {tasks : List Task} {g : Graph Task}
    (hNew : (g.nodes.map Node.name ++ tasks.map Task.name).Nodup) :
    tasks.foldl (fun g task => g.add task.name task) g =
      { g with nodes := g.nodes ++ tasks.map fun task => ⟨task.name, task⟩ } := by
  induction tasks generalizing g with
  | nil => simp
  | cons task rest ih =>
    have hFirst : g.contains task.name = false := by
      rw [Graph.contains_eq_false_iff]
      intro hMem
      exact List.disjoint_of_nodup_append hNew hMem (by simp)
    have hAdd : g.add task.name task = { g with nodes := g.nodes ++ [⟨task.name, task⟩] } := by
      simp [Graph.add, hFirst]
    rw [List.foldl_cons, hAdd, ih]
    · simp
    · simpa using hNew

theorem graph_eq : r.graph = ⟨r.tasks.map fun task => ⟨task.name, task⟩, []⟩ := by
  have hNew : ((Graph.empty : Graph Task).nodes.map Node.name ++ r.tasks.map Task.name).Nodup := by
    rw [Graph.empty, List.map_nil, List.nil_append]
    exact r.distinct
  rw [r.agrees_indexedGraph.2, foldl_add hNew, Graph.empty, List.nil_append]

theorem names_graph : r.graph.nodes.map Node.name = r.tasks.map Task.name := by
  rw [graph_eq, List.map_map]
  rfl

theorem contains_iff : r.contains name = true ↔ name ∈ r.tasks.map Task.name := by
  simp [contains_eq]

theorem contains_graph : r.graph.contains name = r.contains name := by
  rw [Bool.eq_iff_iff, Graph.contains_iff, names_graph, contains_iff]

theorem position?_eq_some_iff {i : Nat} :
    r.position? name = some i ↔ (r.tasks.map Task.name)[i]? = some name := by
  have hSame : r.position? name = r.graph.index? name := by
    simp [position?_eq, Graph.index?, graph_eq, List.findIdx?_map, Function.comp_def]
  rw [hSame, Graph.index?_eq_some_iff (names_graph ▸ r.distinct), names_graph]

theorem dependsOn_graph_iff {linked : Graph Task} (hLink : r.graph.link = .ok linked)
    {a b : String} : linked.DependsOn a b ↔ r.Requires a b := by
  have hDistinct : (r.graph.nodes.map Node.name).Nodup := names_graph ▸ r.distinct
  have hEdges : r.graph.edges = [] := by rw [graph_eq]
  rw [Graph.dependsOn_of_link hDistinct hEdges hLink, graph_eq]
  constructor
  · rintro ⟨node, hNode, rfl, hDep⟩
    obtain ⟨task, hTask, rfl⟩ := List.mem_map.mp hNode
    exact ⟨task, hTask, rfl, hDep⟩
  · rintro ⟨task, hTask, rfl, hDep⟩
    exact ⟨_, List.mem_map_of_mem hTask, rfl, hDep⟩

-- ---------------------------------------------------------------------------
-- Missing names
-- ---------------------------------------------------------------------------

/-- Every name that a task lists is registered. -/
def Complete (r : Registry) : Prop :=
  ∀ task ∈ r.tasks, ∀ dep ∈ task.dependsOn, r.contains dep = true

/-- The first task that lists a missing name is `name`, and the first missing
name on its list is `dep`. -/
def FirstMissing (r : Registry) (name dep : String) : Prop :=
  ∃ before task after, r.tasks = before ++ task :: after ∧ task.name = name ∧
    (∀ t ∈ before, ∀ d ∈ t.dependsOn, r.contains d = true) ∧
    ∃ front back, task.dependsOn = front ++ dep :: back ∧ r.contains dep = false ∧
      ∀ d ∈ front, r.contains d = true

/-- The names missing from what a task lists, each with the task. -/
def missingOf (r : Registry) (task : Task) : List (String × String) :=
  (task.dependsOn.filter fun dep => !r.contains dep).map fun dep => (task.name, dep)

theorem dangling_graph : r.graph.dangling = r.tasks.flatMap r.missingOf := by
  rw [Graph.dangling]
  simp only [contains_graph]
  rw [graph_eq, List.flatMap_map]
  rfl

theorem missingOf_eq_nil_iff {task : Task} :
    r.missingOf task = [] ↔ ∀ dep ∈ task.dependsOn, r.contains dep = true := by
  simp [missingOf, List.filter_eq_nil_iff]

theorem complete_iff : r.Complete ↔ r.graph.dangling = [] := by
  rw [dangling_graph, List.flatMap_eq_nil_iff]
  simp only [missingOf_eq_nil_iff]
  rfl

theorem firstMissing_of_dangling {task dep : String} {rest : List (String × String)}
    (h : r.graph.dangling = (task, dep) :: rest) : r.FirstMissing task dep := by
  rw [dangling_graph] at h
  -- the tasks before the one that is told list nothing that is missing
  have hSplit : ∀ tasks : List Task, tasks.flatMap r.missingOf = (task, dep) :: rest →
      ∃ before t after more, tasks = before ++ t :: after ∧ (∀ b ∈ before, r.missingOf b = []) ∧
        r.missingOf t = (task, dep) :: more := by
    intro tasks
    induction tasks with
    | nil => simp
    | cons t later ih =>
      intro hAll
      cases hFirst : r.missingOf t with
      | nil =>
        rw [List.flatMap_cons, hFirst, List.nil_append] at hAll
        obtain ⟨before, u, after, more, rfl, hBefore, hMore⟩ := ih hAll
        exact ⟨t :: before, u, after, more, rfl, by simpa [hFirst] using hBefore, hMore⟩
      | cons pair more =>
        rw [List.flatMap_cons, hFirst, List.cons_append] at hAll
        obtain rfl := (List.cons.inj hAll).1
        exact ⟨[], t, later, more, rfl, by simp, hFirst⟩
  obtain ⟨before, t, after, more, hTasks, hBefore, hMissing⟩ := hSplit r.tasks h
  rw [missingOf, List.map_eq_cons_iff] at hMissing
  obtain ⟨d, later, hFilter, hPair, -⟩ := hMissing
  obtain ⟨rfl, rfl⟩ := Prod.mk.inj hPair
  obtain ⟨front, back, hDeps, hFront, hMissing, -⟩ := List.filter_eq_cons_iff.mp hFilter
  refine ⟨before, t, after, hTasks, rfl, fun b hb => missingOf_eq_nil_iff.mp (hBefore b hb),
    front, back, hDeps, by simpa using hMissing, by simpa using hFront⟩

-- ---------------------------------------------------------------------------
-- The verdict of a check
-- ---------------------------------------------------------------------------

theorem check_of_link {linked : Graph Task} (hLink : r.graph.link = .ok linked) :
    r.Complete ∧ r.check = match linked.findCycle? with
      | none => .ok ()
      | some cycle => .error (.cyclicDependency cycle) := by
  obtain ⟨hResolved, -, -⟩ := Graph.linked_of_link hLink
  rw [Graph.unresolved_eq_dangling] at hResolved
  refine ⟨complete_iff.mpr hResolved, ?_⟩
  rw [check_eq, hLink]
  simp only [Graph.check_of_dangling (Graph.dangling_of_link hLink)]
  cases linked.findCycle? <;> rfl

/--
**The three verdicts of a check.** It finds nothing, and then nothing is missing
and no task depends on itself; or it tells the first name that is missing; or
nothing is missing, and it tells a cycle.
-/
theorem check_verdict (r : Registry) :
    (r.check = .ok () ∧ r.Complete ∧ ∀ n, ¬ r.Needs n n) ∨
    (∃ task dep, r.check = .error (.unknownTask dep (some task)) ∧ r.FirstMissing task dep) ∨
    (∃ cycle, r.check = .error (.cyclicDependency cycle) ∧ r.Complete ∧
      IsCycle r.Requires cycle) := by
  cases hLink : r.graph.link with
  | error fault =>
    obtain ⟨hFault, hNe⟩ := Graph.refused_of_link hLink
    rw [Graph.unresolved_eq_dangling] at hFault hNe
    subst hFault
    obtain ⟨⟨task, dep⟩, rest, hCons⟩ := List.exists_cons_of_ne_nil hNe
    refine .inr (.inl ⟨task, dep, ?_, firstMissing_of_dangling hCons⟩)
    rw [check_eq, hLink, hCons]
    rfl
  | ok linked =>
    obtain ⟨hComplete, hCheck⟩ := check_of_link hLink
    have hWellFormed : linked.WellFormed :=
      Graph.wellFormed_of_link (names_graph ▸ r.distinct) (by rw [graph_eq]) hLink
    have hSpec := Graph.findCycle?_spec hWellFormed
    have hSame : linked.DependsOn = r.Requires :=
      funext fun _ => funext fun _ => propext (dependsOn_graph_iff hLink)
    rw [hSame] at hSpec
    cases hCycle : linked.findCycle? with
    | none =>
      rw [hCycle] at hSpec hCheck
      exact .inl ⟨hCheck, hComplete, hSpec⟩
    | some cycle =>
      rw [hCycle] at hSpec hCheck
      exact .inr (.inr ⟨cycle, hCheck, hComplete, hSpec⟩)

-- ---------------------------------------------------------------------------
-- Checks and plans
-- ---------------------------------------------------------------------------

theorem Complete.not_dangles (hComplete : r.Complete) : ¬ r.Dangles name := by
  rintro ⟨_, dep, -, ⟨task, hTask, rfl, hDep⟩, hMissing⟩
  rw [hComplete task hTask dep hDep] at hMissing
  cases hMissing

/-- Where nothing is missing and nothing depends on itself, every task can be
planned. -/
theorem exists_plan (hComplete : r.Complete) (hAcyclic : ∀ n, ¬ r.Needs n n)
    (hName : r.contains name = true) : ∃ plan, r.plan name = .ok plan := by
  have hSound : ¬ r.Dangles name := hComplete.not_dangles
  rcases plan_of_not_dangles hName hSound with ⟨cycle, -, hCycle, -⟩ | ⟨plan, hPlan, -⟩
  · obtain ⟨n, -, hNeeds⟩ := hCycle.exists_transGen
    exact absurd hNeeds (hAcyclic n)
  · exact ⟨plan, hPlan⟩

/-- A task that can be planned lists only registered names. -/
theorem contains_of_plan {task : Task} (hTask : task ∈ r.tasks) {plan : List Task}
    (hPlan : r.plan task.name = .ok plan) : ∀ dep ∈ task.dependsOn, r.contains dep = true := by
  intro dep hDep
  have hIsPlan := isPlan_of_plan hPlan
  have hMem := (hIsPlan.closure dep).mpr (.single ⟨task, hTask, rfl, hDep⟩)
  obtain ⟨found, hFound, rfl⟩ := List.mem_map.mp hMem
  exact contains_iff.mpr (List.mem_map_of_mem (hIsPlan.registered found hFound))

/-- A task that can be planned does not depend on itself. -/
theorem not_needs_of_plan {plan : List Task} (hPlan : r.plan name = .ok plan) :
    ¬ r.Needs name name := by
  have hIsPlan := isPlan_of_plan hPlan
  exact hIsPlan.founded.irrefl hIsPlan.once ((hIsPlan.closure name).mpr .refl)

/-- **No fault is found exactly if every task can be planned.** -/
theorem check_eq_ok_iff : r.check = .ok () ↔
    ∀ name, r.contains name = true → ∃ plan, r.plan name = .ok plan := by
  constructor
  · intro hCheck name hName
    rcases r.check_verdict with ⟨-, hComplete, hAcyclic⟩ | ⟨_, _, hFault, -⟩ | ⟨_, hFault, -⟩
    · exact exists_plan hComplete hAcyclic hName
    · simp [hCheck] at hFault
    · simp [hCheck] at hFault
  · intro hPlans
    have hOwn : ∀ task ∈ r.tasks, ∃ plan, r.plan task.name = .ok plan :=
      fun task hTask => hPlans _ (contains_iff.mpr (List.mem_map_of_mem hTask))
    rcases r.check_verdict with ⟨hCheck, -⟩ | ⟨_, dep, -, hMissing⟩ | ⟨cycle, -, -, hCycle⟩
    · exact hCheck
    · -- the task that lists a missing name has no plan
      obtain ⟨before, task, after, hTasks, -, -, front, back, hDeps, hNot, -⟩ := hMissing
      have hTask : task ∈ r.tasks := by simp [hTasks]
      obtain ⟨plan, hPlan⟩ := hOwn task hTask
      have hKnown := contains_of_plan hTask hPlan dep (by simp [hDeps])
      rw [hNot] at hKnown
      cases hKnown
    · -- nor has a task on a cycle
      obtain ⟨n, -, hNeeds⟩ := hCycle.exists_transGen
      obtain ⟨_, ⟨task, hTask, rfl, -⟩, -⟩ := TransGen.head'_iff.mp hNeeds
      obtain ⟨plan, hPlan⟩ := hOwn task hTask
      exact absurd hNeeds (not_needs_of_plan hPlan)

end Registry

-- ---------------------------------------------------------------------------
-- Projects
-- ---------------------------------------------------------------------------

namespace Project

variable {read : Path → Except SystemError String} {path : Path} {file : TaskFile} {p : Project}

theorem file_of_load (hLoad : load read path = .ok p) : ∃ file, ofFile file path = .ok p := by
  rw [load] at hLoad
  obtain ⟨source, -, hLoad⟩ := Except.bind_eq_ok hLoad
  obtain ⟨file, -, hLoad⟩ := Except.bind_eq_ok hLoad
  exact ⟨file, hLoad⟩

/-- A project has been checked, and its default task exists. -/
theorem checked_of_ofFile (hFile : ofFile file path = .ok p) :
    p.registry.check = .ok () ∧
      ∀ name, p.settings.default = some name → p.registry.contains name = true := by
  rw [ofFile] at hFile
  obtain ⟨-, -, hFile⟩ := Except.bind_eq_ok hFile
  obtain ⟨registry, -, hFile⟩ := Except.bind_eq_ok hFile
  obtain ⟨_, hCheck, hFile⟩ := Except.bind_eq_ok hFile
  obtain ⟨_, hDefault, hFile⟩ := Except.bind_eq_ok hFile
  obtain rfl := Except.ok.inj hFile
  refine ⟨hCheck, fun name hName => ?_⟩
  simp only at hName
  simp only [checkDefault, hName] at hDefault
  split at hDefault
  · assumption
  · cases hDefault

/-- What a project takes for its target is registered, or was requested. -/
theorem target_eq_ok (hLoad : load read path = .ok p) {requested : Option String} {target : String}
    (hTarget : p.target requested = .ok target) :
    requested = some target ∨ p.registry.contains target = true := by
  obtain ⟨file, hFile⟩ := file_of_load hLoad
  rw [Project.target] at hTarget
  cases requested with
  | some name =>
    obtain rfl := Except.ok.inj hTarget
    exact .inl rfl
  | none =>
    cases hDefault : p.settings.default with
    | none =>
      rw [hDefault] at hTarget
      cases hTarget
    | some name =>
      rw [hDefault] at hTarget
      obtain rfl := Except.ok.inj hTarget
      exact .inr ((checked_of_ofFile hFile).2 name hDefault)

end Project

/--
**A check agrees with the plans.** It finds no fault exactly if every registered
name has a plan. The name that it tells as missing is the first one on the list
of the first task that lists any, and if it tells a cycle then no name is
missing.

So every task of a project can be planned, its default task among them. What
keeps a run of it, or a look at a plan, from getting one is never a cycle or a
dependency: the name itself was requested and is not registered.
-/
theorem check_agrees_with_plans (r : Registry) :
    (r.check = .ok () ↔ ∀ name, r.contains name = true → ∃ plan, r.plan name = .ok plan) ∧
    (∀ dep task, r.check = .error (.unknownTask dep task) →
      ∃ name, task = some name ∧ r.FirstMissing name dep) ∧
    (∀ cycle, r.check = .error (.cyclicDependency cycle) → r.Complete) ∧
    ∀ (read : Path → Except SystemError String) (path : Path) (p : Project),
      Project.load read path = .ok p →
      (∀ name, p.registry.contains name = true → ∃ plan, p.registry.plan name = .ok plan) ∧
      (∀ name, p.settings.default = some name → ∃ plan, p.registry.plan name = .ok plan) ∧
      ∀ (σ : Type) (w : Workspace σ) (c : CommandLine) (s : σ) (target : String) (fault : Fault),
        c.mode = none ∨ c.mode = some .dryRun → p.target c.task = .ok target →
        p.registry.plan target = .error fault →
        c.task = some target ∧ p.registry.contains target = false ∧
        fault = .unknownTask target none ∧
        (w.executeOn c p s).result = .error (.ofFault (.unknownTask target none)) := by
  refine ⟨r.check_eq_ok_iff, ?_, ?_, ?_⟩
  · intro dep task hCheck
    rcases r.check_verdict with ⟨hOk, -⟩ | ⟨name, missing, hFault, hFirst⟩ | ⟨_, hFault, -⟩
    · simp [hCheck] at hOk
    · rw [hCheck] at hFault
      obtain ⟨rfl, rfl⟩ := Fault.unknownTask.inj (Except.error.inj hFault)
      exact ⟨name, rfl, hFirst⟩
    · simp [hCheck] at hFault
  · intro cycle hCheck
    rcases r.check_verdict with ⟨hOk, -⟩ | ⟨_, _, hFault, -⟩ | ⟨_, -, hComplete, -⟩
    · simp [hCheck] at hOk
    · simp [hCheck] at hFault
    · exact hComplete
  · intro read path p hLoad
    obtain ⟨file, hFile⟩ := Project.file_of_load hLoad
    obtain ⟨hCheck, hDefault⟩ := Project.checked_of_ofFile hFile
    have hPlans := Registry.check_eq_ok_iff.mp hCheck
    refine ⟨hPlans, fun name hName => hPlans name (hDefault name hName), ?_⟩
    intro σ w c s target fault hMode hTarget hPlan
    have hUnknown : p.registry.contains target = false := by
      rw [← Bool.not_eq_true]
      intro hKnown
      obtain ⟨plan, hOk⟩ := hPlans target hKnown
      rw [hOk] at hPlan
      cases hPlan
    have hRequested : c.task = some target := by
      rcases Project.target_eq_ok hLoad hTarget with hTask | hKnown
      · exact hTask
      · rw [hKnown] at hUnknown
        cases hUnknown
    obtain rfl : fault = .unknownTask target none := by
      rw [Registry.plan, hUnknown, if_neg (by simp)] at hPlan
      exact (Except.error.inj hPlan).symm
    refine ⟨hRequested, hUnknown, rfl, ?_⟩
    have hInit : c.mode ≠ some .init := by
      rcases hMode with hMode | hMode <;> simp [hMode]
    rw [Workspace.executeOn_eq w hInit]
    rcases hMode with hMode | hMode
    · simp [hMode, hTarget, Host.run, hPlan, Except.map, Except.mapError]
    · simp [hMode, hTarget, hPlan, Except.map, Except.mapError, Response.still]

end TaskMill
