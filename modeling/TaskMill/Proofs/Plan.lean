import TaskMill.Proofs.Indexing
import TaskMill.Proofs.Ordering
/-!
# TaskMill — what a plan comes to

The **closure** of a name holds all that it depends on, over any number of
steps, and the name itself (`Reaches`). A closure **dangles** if one of its
tasks depends on a name that is not registered; it is **circular** if one of
its tasks depends on itself, over any number of steps.

Planning a name comes to exactly one of four things (`plan_verdict`): the name
is unknown; else the closure dangles, and a name that is missing is told
together with a task that requires it; else the closure is circular, and a
cycle in it is told; else there is a plan, which holds the closure, once each
and dependencies first.

The graph that is searched is that of the closure (`closureGraph`). It is
linked only if nothing dangles, and then its edges are the dependencies
between the tasks of the closure (`dependsOn_iff`).
-/

namespace TaskMill.Registry

open Relation (ReflTransGen TransGen)

variable {r : Registry} {name : String}

-- ---------------------------------------------------------------------------
-- Looking up
-- ---------------------------------------------------------------------------

/-- A registered task is found by its name. -/
theorem get?_eq_some_iff {task : Task} :
    r.get? name = some task ↔ task ∈ r.tasks ∧ task.name = name := by
  rw [get?_eq]
  constructor
  · intro h
    exact ⟨List.mem_of_find?_eq_some h, by simpa using List.find?_some h⟩
  · rintro ⟨hTask, rfl⟩
    cases hFound : r.tasks.find? (·.name = task.name) with
    | none => simpa using List.find?_eq_none.mp hFound task hTask
    | some found =>
      have hMem := List.mem_of_find?_eq_some hFound
      have hName : found.name = task.name := by simpa using List.find?_some hFound
      rw [List.inj_on_of_nodup_map r.distinct hMem hTask hName]

theorem contains_eq_isSome : r.contains name = (r.get? name).isSome := by
  rw [Bool.eq_iff_iff, contains_eq, get?_eq, List.find?_isSome, List.any_eq_true]

theorem contains_eq_false_iff : r.contains name = false ↔ r.get? name = none := by
  rw [contains_eq_isSome, Option.isSome_eq_false_iff, Option.isNone_iff_eq_none]

/-- The catalogue of a registry knows the tasks that the registry does. -/
theorem lookup_catalogue : r.catalogue.lookup name = r.get? name := by
  rw [catalogue, get?_eq]
  induction r.tasks with
  | nil => rfl
  | cons task rest ih =>
    rw [List.map_cons, List.lookup_cons, List.find?_cons, ih]
    by_cases hName : task.name = name
    · simp [hName]
    · rw [beq_eq_false_iff_ne.mpr (Ne.symm hName)]
      simp [hName]

-- ---------------------------------------------------------------------------
-- Closures
-- ---------------------------------------------------------------------------

/-- A task `a` lists `b` among what it depends on. -/
def Requires (r : Registry) (a b : String) : Prop :=
  ∃ task ∈ r.tasks, task.name = a ∧ b ∈ task.dependsOn

/-- `b` is in the closure of `a`. -/
abbrev Reaches (r : Registry) : String → String → Prop := ReflTransGen r.Requires

/-- `a` depends on `b`, over any number of steps but none. -/
abbrev Needs (r : Registry) : String → String → Prop := TransGen r.Requires

/-- A task in the closure of a name depends on one that is not registered. -/
def Dangles (r : Registry) (name : String) : Prop :=
  ∃ task dep, r.Reaches name task ∧ r.Requires task dep ∧ r.contains dep = false

/-- A task in the closure of a name depends on itself. -/
def Circular (r : Registry) (name : String) : Prop :=
  ∃ task, r.Reaches name task ∧ r.Needs task task

/-- A plan of a name: its closure, each task once and after its dependencies. -/
structure IsPlan (r : Registry) (name : String) (plan : List Task) : Prop where
  registered : ∀ task ∈ plan, task ∈ r.tasks
  once       : (plan.map Task.name).Nodup
  closure    : ∀ n, n ∈ plan.map Task.name ↔ r.Reaches name n
  ordered    : ∀ before task after, plan = before ++ task :: after →
    ∀ dep ∈ task.dependsOn, dep ∈ before.map Task.name
  last       : (plan.map Task.name).getLast? = some name

theorem requires_iff_catalogue {a b : String} :
    r.Requires a b ↔ Graph.Requires r.catalogue a b := by
  simp only [Requires, Graph.Requires, lookup_catalogue, get?_eq_some_iff, and_assoc]
  rfl

theorem requires_eq_catalogue : r.Requires = Graph.Requires r.catalogue :=
  funext fun _ => funext fun _ => propext requires_iff_catalogue

/-- A plan whose names are founded has its tasks after their dependencies. -/
theorem ordered_of_founded {plan : List Task} (hTasks : ∀ task ∈ plan, task ∈ r.tasks)
    (h : Founded r.Requires (plan.map Task.name)) :
    ∀ before task after, plan = before ++ task :: after →
      ∀ dep ∈ task.dependsOn, dep ∈ before.map Task.name := by
  rintro before task after rfl dep hDep
  refine h (before.map Task.name) task.name (after.map Task.name) (by simp) dep ?_
  exact ⟨task, hTasks task (by simp), rfl, hDep⟩

-- ---------------------------------------------------------------------------
-- The graph of a closure
-- ---------------------------------------------------------------------------

/-- The graph of all that a name depends on, before it is linked. -/
def closureGraph (r : Registry) (name : String) : Graph Task :=
  (Graph.gather Graph.add r.catalogue [name] ⟨.empty, []⟩).graph

theorem gathering_closure : Graph.Gathering .empty r.catalogue name []
    (Graph.gather Graph.add r.catalogue [name] ⟨.empty, []⟩) :=
  Graph.gather_gathering (.start .empty r.catalogue name)

theorem mem_closureGraph {node : Node Task} : node ∈ (r.closureGraph name).nodes ↔
    r.Reaches name node.name ∧ r.get? node.name = some node.data := by
  have hEmpty : (Graph.empty : Graph Task).contains node.name = false := rfl
  rw [closureGraph, gathering_closure.nodes_eq, Graph.empty, List.nil_append, ← Graph.empty,
    Graph.mem_newNodes, gathering_closure.mem_asked_iff, hEmpty, lookup_catalogue, Reaches,
    requires_eq_catalogue]
  simp

theorem mem_names_closureGraph {n : String} : n ∈ (r.closureGraph name).nodes.map Node.name ↔
    r.Reaches name n ∧ r.contains n = true := by
  rw [contains_eq_isSome, Option.isSome_iff_exists, List.mem_map]
  constructor
  · rintro ⟨node, hNode, rfl⟩
    obtain ⟨hReach, hGet⟩ := mem_closureGraph.mp hNode
    exact ⟨hReach, node.data, hGet⟩
  · rintro ⟨hReach, task, hGet⟩
    exact ⟨⟨n, task⟩, mem_closureGraph.mpr ⟨hReach, hGet⟩, rfl⟩

theorem names_closureGraph_nodup : ((r.closureGraph name).nodes.map Node.name).Nodup := by
  rw [closureGraph, gathering_closure.nodes_eq, Graph.empty, List.nil_append, Graph.names_newNodes]
  exact (gathering_closure.asked_nodup.filter _).filter _

theorem closureGraph_edges : (r.closureGraph name).edges = [] :=
  gathering_closure.edges_eq

/-- What the graph cannot resolve is what dangles in the closure. -/
theorem mem_unresolved_closureGraph {task dep : String} :
    (task, dep) ∈ (r.closureGraph name).unresolved ↔
      r.Reaches name task ∧ r.Requires task dep ∧ r.contains dep = false := by
  have hStep : ∀ {node : Node Task}, node ∈ (r.closureGraph name).nodes →
      dep ∈ dependencies node.data → r.Requires node.name dep := by
    intro node hNode hDep
    obtain ⟨hTask, hName⟩ := get?_eq_some_iff.mp (mem_closureGraph.mp hNode).2
    exact ⟨node.data, hTask, hName, hDep⟩
  rw [Graph.mem_unresolved]
  constructor
  · rintro ⟨⟨node, hNode, rfl, hDep⟩, hNot⟩
    have hReach := (mem_closureGraph.mp hNode).1
    refine ⟨hReach, hStep hNode hDep, ?_⟩
    -- a registered dependency would be a node
    by_contra hContains
    exact hNot (mem_names_closureGraph.mpr
      ⟨hReach.tail (hStep hNode hDep), by simpa using hContains⟩)
  · rintro ⟨hReach, ⟨t, ht, rfl, hDep⟩, hContains⟩
    refine ⟨⟨⟨t.name, t⟩, mem_closureGraph.mpr ⟨hReach, get?_eq_some_iff.mpr ⟨ht, rfl⟩⟩, rfl, hDep⟩,
      fun hMem => ?_⟩
    simp [(mem_names_closureGraph.mp hMem).2] at hContains

theorem unresolved_closureGraph_eq_nil_iff :
    (r.closureGraph name).unresolved = [] ↔ ¬ r.Dangles name := by
  rw [List.eq_nil_iff_forall_not_mem]
  constructor
  · rintro h ⟨task, dep, hDangling⟩
    exact h (task, dep) (mem_unresolved_closureGraph.mpr hDangling)
  · rintro h ⟨task, dep⟩ hMem
    exact h ⟨task, dep, mem_unresolved_closureGraph.mp hMem⟩

-- ---------------------------------------------------------------------------
-- The linked graph
-- ---------------------------------------------------------------------------

section Linked

variable {linked : Graph Task} (hLink : (r.closureGraph name).link = .ok linked)

include hLink

theorem linked_nodes_eq : linked.nodes = (r.closureGraph name).nodes :=
  (Graph.linked_of_link hLink).2.1

theorem not_dangles_of_link : ¬ r.Dangles name :=
  unresolved_closureGraph_eq_nil_iff.mp (Graph.linked_of_link hLink).1

/-- The edges of the linked graph are the dependencies of the tasks in it. -/
theorem dependsOn_iff {a b : String} :
    linked.DependsOn a b ↔ r.Reaches name a ∧ r.Requires a b := by
  rw [Graph.dependsOn_of_link names_closureGraph_nodup closureGraph_edges hLink]
  constructor
  · rintro ⟨node, hNode, rfl, hDep⟩
    obtain ⟨hReach, hGet⟩ := mem_closureGraph.mp hNode
    obtain ⟨hTask, hName⟩ := get?_eq_some_iff.mp hGet
    exact ⟨hReach, node.data, hTask, hName, hDep⟩
  · rintro ⟨hReach, task, hTask, rfl, hDep⟩
    have hNode : (⟨task.name, task⟩ : Node Task) ∈ (r.closureGraph name).nodes :=
      mem_closureGraph.mpr ⟨hReach, get?_eq_some_iff.mpr ⟨hTask, rfl⟩⟩
    exact ⟨_, hNode, rfl, hDep⟩

theorem linked_wellFormed : linked.WellFormed :=
  Graph.wellFormed_of_link names_closureGraph_nodup closureGraph_edges hLink

/-- From the root, the edges lead to the closure. -/
theorem reflTransGen_dependsOn_iff {n : String} :
    ReflTransGen linked.DependsOn name n ↔ r.Reaches name n := by
  constructor
  · exact ReflTransGen.mono (fun a b hab => ((dependsOn_iff hLink).mp hab).2) name n
  · intro h
    induction h with
    | refl => exact .refl
    | tail hReach hStep ih => exact ih.tail ((dependsOn_iff hLink).mpr ⟨hReach, hStep⟩)

end Linked

-- ---------------------------------------------------------------------------
-- The verdict
-- ---------------------------------------------------------------------------

/-- Planning a registered name links the graph of its closure and orders it. -/
theorem plan_of_contains (h : r.contains name = true) :
    r.plan name = match (r.closureGraph name).link with
      | .error fault => .error (.ofGraph fault)
      | .ok linked =>
        match linked.orderBy name fun node => (r.position? node.name).getD r.size with
        | .error fault => .error (.ofGraph fault)
        | .ok nodes => .ok (nodes.map Node.data) := by
  have hKnown : ¬ (r.catalogue.lookup name).isNone = true := by
    rw [lookup_catalogue, Option.isNone_iff_eq_none, ← contains_eq_false_iff, h]
    simp
  rw [plan_eq, if_pos h, Graph.extend, Graph.extendBy, if_neg hKnown]
  simp only
  rw [← closureGraph]
  cases (r.closureGraph name).link <;> rfl

theorem plan_of_not_contains (h : r.contains name = false) :
    r.plan name = .error (.unknownTask name none) := by
  rw [plan, if_neg (by simp [h])]

/-- Where something dangles, a missing name is told with a task that requires
it, whatever else is wrong. -/
theorem plan_of_dangles (h : r.contains name = true) (hDangles : r.Dangles name) :
    ∃ task dep, r.plan name = .error (.unknownTask dep (some task)) ∧
      r.Reaches name task ∧ r.Requires task dep ∧ r.contains dep = false := by
  rw [plan_of_contains h]
  cases hLink : (r.closureGraph name).link with
  | ok linked => exact absurd hDangles (not_dangles_of_link hLink)
  | error fault =>
    obtain ⟨rfl, hNe⟩ := Graph.refused_of_link hLink
    -- the first that could not be resolved is the one that is told
    obtain ⟨⟨task, dep⟩, rest, hCons⟩ := List.exists_cons_of_ne_nil hNe
    refine ⟨task, dep, by rw [hCons]; rfl, mem_unresolved_closureGraph.mp ?_⟩
    rw [hCons]
    exact List.mem_cons_self

/-- The tasks of nodes of the linked graph have the names of these. -/
theorem map_name_data {nodes : List (Node Task)} (hNodes : nodes ⊆ (r.closureGraph name).nodes) :
    (nodes.map Node.data).map Task.name = nodes.map Node.name := by
  rw [List.map_map]
  refine List.map_congr_left fun node hNode => ?_
  exact (get?_eq_some_iff.mp (mem_closureGraph.mp (hNodes hNode)).2).2

theorem exists_link_of_not_dangles (hSound : ¬ r.Dangles name) :
    ∃ linked, (r.closureGraph name).link = .ok linked :=
  Graph.exists_link_iff.mpr (unresolved_closureGraph_eq_nil_iff.mpr hSound)

/-- Where nothing dangles, there is a cycle to tell or a plan. -/
theorem plan_of_not_dangles (h : r.contains name = true) (hSound : ¬ r.Dangles name) :
    (∃ cycle, r.plan name = .error (.cyclicDependency cycle) ∧ IsCycle r.Requires cycle ∧
      ∀ n ∈ cycle, r.Reaches name n) ∨
    ∃ tasks, r.plan name = .ok tasks ∧ (∀ task ∈ tasks, task ∈ r.tasks) ∧
      (tasks.map Task.name).Nodup ∧ Founded r.Requires (tasks.map Task.name) ∧
      ∀ n, n ∈ tasks.map Task.name ↔ r.Reaches name n := by
  obtain ⟨linked, hLink⟩ := exists_link_of_not_dangles hSound
  rw [plan_of_contains h, hLink]
  have hSpec := Graph.orderBy_spec (linked_wellFormed hLink)
    (fun node => (r.position? node.name).getD r.size) name
  simp only
  cases hOrder : linked.orderBy name fun node => (r.position? node.name).getD r.size with
  | error fault =>
    rw [hOrder] at hSpec
    rcases hSpec with ⟨-, hNot⟩ | ⟨cycle, rfl, hCycle, hReach⟩
    · -- the root itself is a node
      rw [Graph.contains_eq_false_iff, linked_nodes_eq hLink, mem_names_closureGraph] at hNot
      exact absurd ⟨.refl, h⟩ hNot
    · refine .inl ⟨cycle, rfl, ?_, fun n hn => (reflTransGen_dependsOn_iff hLink).mp (hReach n hn)⟩
      exact { hCycle with
        chained := hCycle.chained.imp fun a b hab => ((dependsOn_iff hLink).mp hab).2 }
  | ok nodes =>
    rw [hOrder] at hSpec
    obtain ⟨hNodes, hNodup, hFounded, hMem⟩ := hSpec
    rw [linked_nodes_eq hLink] at hNodes
    simp only [reflTransGen_dependsOn_iff hLink] at hMem
    refine .inr ⟨nodes.map Node.data, rfl, ?_, ?_⟩
    · intro task hTask
      obtain ⟨node, hNode, rfl⟩ := List.mem_map.mp hTask
      exact (get?_eq_some_iff.mp (mem_closureGraph.mp (hNodes hNode)).2).1
    · -- within the closure, the edges are all the dependencies there are
      rw [map_name_data hNodes]
      refine ⟨hNodup, hFounded.mono fun a ha b hab => ?_, hMem⟩
      exact (dependsOn_iff hLink).mpr ⟨(hMem a).mp ha, hab⟩

/-- Names that can be put in an order are not circular. -/
theorem not_circular_of_founded {names : List String} (hNodup : names.Nodup)
    (hFounded : Founded r.Requires names) (hMem : ∀ n, n ∈ names ↔ r.Reaches name n) :
    ¬ r.Circular name := by
  rintro ⟨task, hReach, hNeeds⟩
  exact hFounded.irrefl hNodup ((hMem task).mpr hReach) hNeeds

/-- A cycle in a closure makes it circular. -/
theorem circular_of_isCycle {cycle : List String} (hCycle : IsCycle r.Requires cycle)
    (hReach : ∀ n ∈ cycle, r.Reaches name n) : r.Circular name := by
  obtain ⟨task, hTask, hNeeds⟩ := hCycle.exists_transGen
  exact ⟨task, hReach task hTask, hNeeds⟩

theorem isPlan_of_founded {tasks : List Task} (hTasks : ∀ task ∈ tasks, task ∈ r.tasks)
    (hNodup : (tasks.map Task.name).Nodup) (hFounded : Founded r.Requires (tasks.map Task.name))
    (hMem : ∀ n, n ∈ tasks.map Task.name ↔ r.Reaches name n) : r.IsPlan name tasks where
  registered := hTasks
  once := hNodup
  closure := hMem
  ordered := ordered_of_founded hTasks hFounded
  last := hFounded.getLast?_eq hNodup ((hMem name).mpr .refl) fun n hn => (hMem n).mp hn

/-- What planning comes to, if it succeeds, is a plan. -/
theorem isPlan_of_plan {tasks : List Task} (hPlan : r.plan name = .ok tasks) :
    r.IsPlan name tasks := by
  cases hContains : r.contains name with
  | false => simp [plan_of_not_contains hContains] at hPlan
  | true =>
    by_cases hDangles : r.Dangles name
    · obtain ⟨task, dep, hFault, -⟩ := plan_of_dangles hContains hDangles
      simp [hFault] at hPlan
    · rcases plan_of_not_dangles hContains hDangles with
        ⟨cycle, hFault, -⟩ | ⟨tasks', hPlan', hTasks, hNodup, hFounded, hMem⟩
      · simp [hFault] at hPlan
      · obtain rfl : tasks' = tasks := by simpa [hPlan] using hPlan'.symm
        exact isPlan_of_founded hTasks hNodup hFounded hMem

/-- The names of a plan are founded. -/
theorem IsPlan.founded {plan : List Task} (h : r.IsPlan name plan) :
    Founded r.Requires (plan.map Task.name) := by
  rintro before x after hNames y ⟨task, hTask, rfl, hDep⟩
  obtain ⟨front, back, rfl, rfl, hBack⟩ := List.map_eq_append_iff.mp hNames
  obtain ⟨task', rest, rfl, hName, -⟩ := List.map_eq_cons_iff.mp hBack
  obtain rfl : task' = task :=
    List.inj_on_of_nodup_map r.distinct (h.registered task' (by simp)) hTask hName
  exact h.ordered front task' rest rfl y hDep

/-- A plan holds the tasks that its tasks need. -/
theorem IsPlan.mem_of_reaches {plan : List Task} (h : r.IsPlan name plan) {x c : Task}
    (hx : x ∈ plan) (hc : c ∈ r.tasks) (hReaches : r.Reaches x.name c.name) : c ∈ plan := by
  have hClosure := (h.closure x.name).mp (List.mem_map_of_mem hx)
  obtain ⟨task, hTask, hName⟩ := List.mem_map.mp ((h.closure c.name).mpr (hClosure.trans hReaches))
  obtain rfl : task = c := List.inj_on_of_nodup_map r.distinct (h.registered task hTask) hc hName
  exact hTask

/--
**The four verdicts of planning.** Whatever is registered and whatever name is
asked for, planning comes to exactly one of these:

1. the name is not registered, and is told as unknown;
2. something in its closure dangles, and a missing name is told with a
   registered task of the closure that lists it — also where there is a cycle;
3. nothing dangles, the closure is circular, and a cycle in it is told, from
   dependent to dependency;
4. nothing dangles, nothing is circular, and there is a plan: the registered
   tasks of the closure and nothing else, each once and after its
   dependencies, the name itself last.
-/
theorem plan_verdict (r : Registry) (name : String) :
    (r.contains name = false ∧ r.plan name = .error (.unknownTask name none)) ∨
    (r.contains name = true ∧ r.Dangles name ∧ ∃ task dep,
      r.plan name = .error (.unknownTask dep (some task)) ∧
        r.Reaches name task ∧ r.Requires task dep ∧ r.contains dep = false) ∨
    (r.contains name = true ∧ ¬ r.Dangles name ∧ r.Circular name ∧ ∃ cycle,
      r.plan name = .error (.cyclicDependency cycle) ∧ IsCycle r.Requires cycle ∧
        ∀ n ∈ cycle, r.Reaches name n) ∨
    (r.contains name = true ∧ ¬ r.Dangles name ∧ ¬ r.Circular name ∧ ∃ tasks,
      r.plan name = .ok tasks ∧ r.IsPlan name tasks) := by
  cases hContains : r.contains name with
  | false => exact .inl ⟨rfl, plan_of_not_contains hContains⟩
  | true =>
    by_cases hDangles : r.Dangles name
    · exact .inr (.inl ⟨rfl, hDangles, plan_of_dangles hContains hDangles⟩)
    · rcases plan_of_not_dangles hContains hDangles with
        ⟨cycle, hPlan, hCycle, hReach⟩ | ⟨tasks, hPlan, hTasks, hNodup, hFounded, hMem⟩
      · exact .inr (.inr (.inl ⟨rfl, hDangles, circular_of_isCycle hCycle hReach,
          cycle, hPlan, hCycle, hReach⟩))
      · exact .inr (.inr (.inr ⟨rfl, hDangles, not_circular_of_founded hNodup hFounded hMem,
          tasks, hPlan, isPlan_of_founded hTasks hNodup hFounded hMem⟩))

end TaskMill.Registry
