import TaskMill.Fault
import TaskMill.Graph.Indexed
import TaskMill.Task
/-!
# TaskMill — the registry and its plans

A **registry** holds tasks of distinct names in the order in which they were
declared, and an **index** that has the position of each name. The **plan** of a
task is the task and everything it depends on, each once and after its own
dependencies; where the dependencies leave a choice, the task declared first
comes first.
-/

namespace TaskMill

/-- A table has the position of each task, under its name, and nothing else. -/
def NameTable.Lists (index : NameTable) (tasks : List Task) : Prop :=
  ∀ name, index.get? name = tasks.findIdx? (·.name = name)

/-- Tasks of distinct names, in declaration order, with an index of them. -/
structure Registry where
  tasks : List Task
  index : NameTable
  distinct : (tasks.map Task.name).Nodup
  indexed : index.Lists tasks

/-- A task that is new is entered at the end. -/
theorem NameTable.Lists.concat {index : NameTable} {tasks : List Task} (h : index.Lists tasks)
    {task : Task} (hNew : index.get? task.name = none) :
    (index.insert task.name tasks.length).Lists (tasks ++ [task]) := by
  intro name
  rw [List.findIdx?_append]
  by_cases hName : name = task.name
  · subst hName
    rw [NameTable.get?_insert_self, ← h task.name, hNew]
    simp [List.findIdx?_cons]
  · rw [NameTable.get?_insert_of_ne hName, h name]
    simp [List.findIdx?_cons, Ne.symm hName]

namespace Registry

/-- No tasks. -/
def empty : Registry := ⟨[], .empty, .nil, fun _ => rfl⟩

instance : Inhabited Registry := ⟨empty⟩

/-- How many tasks there are. -/
def size (r : Registry) : Nat := r.tasks.length

/-- How many tasks are declared before the one with a name. -/
def position? (r : Registry) (name : String) : Option Nat :=
  r.index.get? name

/-- The task with a name. -/
def get? (r : Registry) (name : String) : Option Task :=
  (r.position? name).bind (r.tasks[·]?)

/-- Whether there is a task with a name. -/
def contains (r : Registry) (name : String) : Bool :=
  (r.position? name).isSome

/-- A name that is not in the index is none of the names. -/
theorem not_mem_names_of_position? {r : Registry} {name : String}
    (hNone : r.position? name = none) :
    name ∉ r.tasks.map Task.name := by
  rw [position?, r.indexed, List.findIdx?_eq_none_iff] at hNone
  intro hMem
  obtain ⟨task, hTask, hName⟩ := List.mem_map.1 hMem
  exact of_decide_eq_false (hNone task hTask) hName

/-- Declares one more task; its name must be new. -/
def register (r : Registry) (task : Task) : Except Fault Registry :=
  if hOld : r.contains task.name = true then .error (.duplicateTask task.name)
  else
    have hNew : r.position? task.name = none := by simpa [contains] using hOld
    .ok {
      tasks := r.tasks ++ [task]
      index := r.index.insert task.name r.tasks.length
      distinct := by
        rw [List.map_append, List.nodup_append]
        refine ⟨r.distinct, by simp, ?_⟩
        intro a ha b hb hSame
        have hTask : b = task.name := by simpa using hb
        exact not_mem_names_of_position? hNew (hTask ▸ hSame ▸ ha)
      indexed := r.indexed.concat hNew }

/-- Declares tasks one after the other. -/
def ofTasks (tasks : List Task) : Except Fault Registry :=
  tasks.foldlM register empty

/-- The tasks by name. -/
def catalogue (r : Registry) : List (String × Task) :=
  r.tasks.map fun task => (task.name, task)

/-- What has to be done for a task: everything it depends on, dependencies
first, and at last the task itself. -/
def plan (r : Registry) (name : String) : Except Fault (List Task) :=
  if r.contains name then
    let closure := (IndexedGraph.empty : IndexedGraph Task).extend r.catalogue name
    match closure.fault with
    | some fault => .error (.ofGraph fault)
    | none =>
      match closure.graph.orderBy name fun node => (r.position? node.name).getD r.size with
      | .error fault => .error (.ofGraph fault)
      | .ok nodes => .ok (nodes.map Node.data)
  else .error (.unknownTask name none)

/-- All tasks added to a graph, in order. -/
def indexedGraph (r : Registry) : IndexedGraph Task :=
  r.tasks.foldl (fun g task => g.added task.name task) .empty

/-- All tasks as the nodes of a graph without edges. -/
def graph (r : Registry) : Graph Task :=
  r.indexedGraph.toGraph

/-- Fails if a task depends on one that does not exist, or if tasks depend on
each other in a circle. -/
def check (r : Registry) : Except Fault Unit :=
  match r.indexedGraph.link with
  | .error fault => .error (.ofGraph fault)
  | .ok linked => linked.check.mapError .ofGraph

end Registry

end TaskMill
