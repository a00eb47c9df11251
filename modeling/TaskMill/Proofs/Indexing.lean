import Mathlib.Data.List.Induction
import TaskMill.Proofs.Closure
import TaskMill.Proofs.Lookups
import TaskMill.Registry
/-!
# TaskMill — tables agree with what they list

A graph is kept with a table of its names. The table **agrees** with the nodes if
it has for each name the number that is found among them (`IndexedGraph.Agrees`).
That is so of the empty graph, and whatever is done to a graph whose table agrees
leaves one whose table agrees. So every operation that believes its table does what
the one of `Graph` does that looks through the nodes.

The index of a registry agrees with its tasks by construction.

## Results

* `IndexedGraph.Agrees.add`, `IndexedGraph.Agrees.link_eq`,
  `IndexedGraph.Agrees.extend_eq` — a graph with a table does what a graph does.
* `Registry.plan_eq`, `Registry.check_eq` — so do plans and checks.
* `Registry.get?_eq`, `Registry.position?_eq`, `Registry.contains_eq` — what the
  index says of a name.
-/

namespace TaskMill

namespace IndexedGraph

variable {α : Type} {g : IndexedGraph α} {name : String} {data : α}

/-- The table has the number of each node, under its name, and nothing else. -/
def Agrees (g : IndexedGraph α) : Prop :=
  ∀ name, g.number? name = g.toGraph.index? name

theorem agrees_empty : (empty : IndexedGraph α).Agrees := fun _ => rfl

-- ---------------------------------------------------------------------------
-- Adding
-- ---------------------------------------------------------------------------

theorem add_of_some {i : Nat} (hOld : g.number? name = some i) : g.add name data = (i, g) := by
  rw [add, hOld]

theorem add_of_none (hNew : g.number? name = none) : g.add name data =
    (g.nodes.length, { g with
      nodes := g.nodes ++ [⟨name, data⟩]
      numbers := g.numbers.insert name g.nodes.length }) := by
  rw [add, hNew]

namespace Agrees

/-- A name is in the table if it has a node. -/
theorem contains_eq (h : g.Agrees) (name : String) : g.contains name = g.toGraph.contains name := by
  rw [IndexedGraph.contains, h name, Bool.eq_iff_iff, Graph.contains_iff, ← not_iff_not,
    ← Graph.index?_eq_none_iff]
  simp

/-- **Adding a name.** The node, its number and the table fit together. -/
theorem add (h : g.Agrees) (name : String) (data : α) :
    (g.added name data).Agrees ∧ (g.added name data).toGraph = g.toGraph.add name data ∧
      (g.add name data).1 = g.toGraph.addedIndex name := by
  cases hNumber : g.number? name with
  | some i =>
    have hOld : g.toGraph.contains name = true := by
      rw [← h.contains_eq, IndexedGraph.contains, hNumber]
      rfl
    rw [added, add_of_some hNumber, Graph.add, if_pos hOld, Graph.addedIndex, ← h name, hNumber]
    exact ⟨h, rfl, rfl⟩
  | none =>
    have hNew : ¬ g.toGraph.contains name = true := by
      rw [← h.contains_eq, IndexedGraph.contains, hNumber]
      exact Bool.false_ne_true
    rw [added, add_of_none hNumber, Graph.add, if_neg hNew, Graph.addedIndex, ← h name, hNumber]
    refine ⟨fun other => ?_, rfl, rfl⟩
    show (g.numbers.insert name g.nodes.length).get? other =
      (Graph.mk (g.nodes ++ [⟨name, data⟩]) g.edges).index? other
    rw [Graph.index?, List.findIdx?_append]
    by_cases hName : other = name
    · -- the name is new, so the number is the one that comes next
      subst hName
      have hNone : g.nodes.findIdx? (·.name = other) = none := (h other).symm.trans hNumber
      rw [NameTable.get?_insert_self, hNone]
      simp [List.findIdx?_cons]
    · have hOld : g.nodes.findIdx? (·.name = other) = g.numbers.get? other := (h other).symm
      rw [NameTable.get?_insert_of_ne hName, hOld]
      simp [List.findIdx?_cons, Ne.symm hName]

/-- Names added one after the other. -/
theorem foldl_added (h : g.Agrees) (adds : List (String × α)) :
    (adds.foldl (fun g entry => g.added entry.1 entry.2) g).Agrees ∧
      (adds.foldl (fun g entry => g.added entry.1 entry.2) g).toGraph =
        adds.foldl (fun g entry => g.add entry.1 entry.2) g.toGraph := by
  induction adds generalizing g with
  | nil => exact ⟨h, rfl⟩
  | cons entry rest ih =>
    obtain ⟨hAdded, hGraph, -⟩ := h.add entry.1 entry.2
    rw [List.foldl_cons, List.foldl_cons, ← hGraph]
    exact ih hAdded

end Agrees

-- ---------------------------------------------------------------------------
-- Linking and extending
-- ---------------------------------------------------------------------------

/-- What gathering a closure came to, without the table. -/
def erase (found : Graph.Gathered (IndexedGraph α)) : Graph.Gathered (Graph α) :=
  ⟨found.graph.toGraph, found.asked⟩

/-- What extending a graph came to, without the table. -/
def eraseAll (e : Graph.Extended (IndexedGraph α)) : Graph.Extended (Graph α) :=
  ⟨e.graph.toGraph, e.asked, e.fault⟩

variable [Dependent α]

namespace Agrees

theorem declaredEdges_eq (h : g.Agrees) : g.declaredEdges = g.toGraph.declaredEdges := by
  simp only [IndexedGraph.declaredEdges, Graph.declaredEdges, h _]

theorem unresolved_eq (h : g.Agrees) : g.unresolved = g.toGraph.unresolved := by
  simp only [IndexedGraph.unresolved, Graph.unresolved, h _]

/-- **Linking** finds the same numbers, and leaves the table alone. -/
theorem link_eq (h : g.Agrees) :
    g.link.map IndexedGraph.toGraph = g.toGraph.link ∧
      ∀ linked, g.link = .ok linked → linked.Agrees := by
  rw [IndexedGraph.link, Graph.link, h.unresolved_eq, h.declaredEdges_eq]
  split
  · refine ⟨rfl, fun linked hLink => ?_⟩
    obtain rfl := Except.ok.inj hLink
    exact h
  · exact ⟨rfl, by simp⟩

/-- Gathering a closure asks the same names, and adds them to the same effect. -/
theorem gathers {look : Graph.Lookup α} {agenda : List String} {adds : List (String × α)}
    {found last : Graph.Gathered (IndexedGraph α)} (h : found.graph.Agrees)
    (hGathers : Graph.Gathers added look agenda found adds last) :
    last.graph.Agrees ∧ Graph.Gathers Graph.add look agenda (erase found) adds (erase last) := by
  induction hGathers with
  | done found => exact ⟨h, .done _⟩
  | again hOld _ ih =>
    obtain ⟨hLast, hRest⟩ := ih h
    exact ⟨hLast, .again hOld hRest⟩
  | leaf hNew hNone _ ih =>
    obtain ⟨hLast, hRest⟩ := ih h
    exact ⟨hLast, .leaf hNew hNone hRest⟩
  | known hNew hSome _ ih =>
    obtain ⟨hAdded, hGraph, -⟩ := h.add _ _
    obtain ⟨hLast, hRest⟩ := ih hAdded
    refine ⟨hLast, .known hNew hSome ?_⟩
    rw [erase, hGraph] at hRest
    exact hRest

/-- Extending a graph with its table is to extend the graph. -/
theorem extendsBy {look : Graph.Lookup α} {root : String} {adds : List (String × α)}
    {e : Graph.Extended (IndexedGraph α)} (h : g.Agrees)
    (hExtends : Graph.ExtendsBy added link look g root adds e) :
    e.graph.Agrees ∧
      Graph.ExtendsBy Graph.add Graph.link look g.toGraph root adds (eraseAll e) := by
  have hStart : (Graph.Gathered.mk g []).graph.Agrees := h
  cases hExtends with
  | notFound hNone => exact ⟨h, .notFound hNone⟩
  | refused hSome hGathers hLink =>
    obtain ⟨hFound, hErased⟩ := hStart.gathers hGathers
    refine ⟨hFound, .refused hSome hErased ?_⟩
    rw [erase, ← hFound.link_eq.1, hLink]
    rfl
  | linked hSome hGathers hLink =>
    obtain ⟨hFound, hErased⟩ := hStart.gathers hGathers
    refine ⟨hFound.link_eq.2 _ hLink, .linked hSome hErased ?_⟩
    rw [erase, ← hFound.link_eq.1, hLink]
    rfl

/-- **Extending** a graph with its table by a catalogue is to extend the graph. -/
theorem extend_eq (h : g.Agrees) (catalogue : List (String × α)) (root : String) :
    (g.extend catalogue root).graph.Agrees ∧
      eraseAll (g.extend catalogue root) = g.toGraph.extend catalogue root := by
  obtain ⟨adds, hExtends⟩ := Graph.exists_extendsBy added link g catalogue root
  obtain ⟨hAgrees, hErased⟩ := h.extendsBy hExtends
  exact ⟨hAgrees, hErased.eq_extendBy⟩

-- ---------------------------------------------------------------------------
-- Looking
-- ---------------------------------------------------------------------------

omit [Dependent α] in
theorem orderBy_eq {κ : Type} [Ord κ] (h : g.Agrees) (root : String) (key : Node α → κ) :
    g.orderBy root key = g.toGraph.orderBy root key := by
  rw [IndexedGraph.orderBy, IndexedGraph.orderAlong, h root]
  rfl

omit [Dependent α] in
theorem order_eq (h : g.Agrees) (root : String) : g.order root = g.toGraph.order root := by
  rw [IndexedGraph.order, IndexedGraph.orderAlong, h root]
  rfl

theorem check_eq (h : g.Agrees) : g.check = g.toGraph.check := by
  have hDangling : g.dangling = g.toGraph.dangling := by
    simp only [IndexedGraph.dangling, Graph.dangling, h.contains_eq]
  have hFaults : g.faults = g.toGraph.faults := by
    rw [IndexedGraph.faults, hDangling]
    rfl
  rw [IndexedGraph.check, hFaults]
  rfl

end Agrees

end IndexedGraph

-- ---------------------------------------------------------------------------
-- Registries
-- ---------------------------------------------------------------------------

/-- The positions of tasks. -/
def NameTable.ofTasks (tasks : List Task) : NameTable :=
  tasks.zipIdx.foldl (fun index (task, i) => index.insert task.name i) .empty

theorem NameTable.lists_ofTasks {tasks : List Task} (hDistinct : (tasks.map Task.name).Nodup) :
    (ofTasks tasks).Lists tasks := by
  induction tasks using List.reverseRecOn with
  | nil => exact fun _ => rfl
  | append_singleton before task ih =>
    rw [List.map_append, List.nodup_append] at hDistinct
    obtain ⟨hBefore, -, hApart⟩ := hDistinct
    have hNew : (ofTasks before).get? task.name = none := by
      rw [ih hBefore, List.findIdx?_eq_none_iff]
      intro other hOther
      exact decide_eq_false (hApart _ (List.mem_map_of_mem hOther) _ (by simp))
    have hLast : ofTasks (before ++ [task]) =
        (ofTasks before).insert task.name before.length := by
      simp [ofTasks, List.zipIdx_append]
    rw [hLast]
    exact (ih hBefore).concat hNew

namespace Registry

/-- The registry of tasks whose names are distinct. -/
def ofDistinct (tasks : List Task) (distinct : (tasks.map Task.name).Nodup) : Registry where
  tasks := tasks
  index := .ofTasks tasks
  distinct := distinct
  indexed := NameTable.lists_ofTasks distinct

@[simp] theorem tasks_ofDistinct {tasks : List Task} (distinct : (tasks.map Task.name).Nodup) :
    (ofDistinct tasks distinct).tasks = tasks := rfl

variable (r : Registry) (name : String)

theorem position?_eq : r.position? name = r.tasks.findIdx? (·.name = name) :=
  r.indexed name

theorem get?_eq : r.get? name = r.tasks.find? (·.name = name) := by
  rw [get?, position?_eq]
  induction r.tasks with
  | nil => rfl
  | cons task rest ih =>
    rw [List.findIdx?_cons, List.find?_cons]
    by_cases hName : task.name = name
    · simp [hName]
    · simp only [hName, decide_false, Bool.false_eq_true, if_false, ← ih]
      cases rest.findIdx? (·.name = name) <;> rfl

theorem contains_eq : r.contains name = r.tasks.any (·.name = name) := by
  rw [contains, position?_eq, List.findIdx?_isSome]

theorem agrees_indexedGraph : r.indexedGraph.Agrees ∧
    r.graph = r.tasks.foldl (fun g task => g.add task.name task) .empty := by
  have hAll := (IndexedGraph.agrees_empty (α := Task)).foldl_added
    (r.tasks.map fun task => (task.name, task))
  rwa [List.foldl_map, List.foldl_map] at hAll

/-- **Plans** are those that the graph without a table gives. -/
theorem plan_eq : r.plan name =
    if r.contains name then
      let closure := (Graph.empty : Graph Task).extend r.catalogue name
      match closure.fault with
      | some fault => .error (.ofGraph fault)
      | none =>
        match closure.graph.orderBy name fun node => (r.position? node.name).getD r.size with
        | .error fault => .error (.ofGraph fault)
        | .ok nodes => .ok (nodes.map Node.data)
    else .error (.unknownTask name none) := by
  obtain ⟨hAgrees, hErase⟩ :=
    (IndexedGraph.agrees_empty (α := Task)).extend_eq r.catalogue name
  rw [plan]
  simp only [hAgrees.orderBy_eq]
  rw [show (Graph.empty : Graph Task).extend r.catalogue name = _ from hErase.symm]
  rfl

/-- **Checks** tell what the check of the graph without a table tells. -/
theorem check_eq : r.check =
    match r.graph.link with
    | .error fault => .error (.ofGraph fault)
    | .ok linked => linked.check.mapError .ofGraph := by
  obtain ⟨hLink, hLinked⟩ := r.agrees_indexedGraph.1.link_eq
  rw [check, graph, ← hLink]
  cases hResult : r.indexedGraph.link with
  | error fault => rfl
  | ok linked =>
    simp only [(hLinked linked hResult).check_eq]
    rfl

end Registry

end TaskMill
