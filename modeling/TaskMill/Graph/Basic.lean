/-!
# TaskMill — the dependency graph

A **graph** holds named nodes in the order they were added, and edges from a
dependency to the node that depends on it. Nodes carry data that names what it
depends on; edges exist only once `link` has turned those names into node
numbers.

* `add` — a name that is already there keeps its node and its data.
* `link` — either every declared dependency gets its edge, or none does and the
  failure lists all that name no node.
* `dangling` — the declared dependencies that name no node.
-/

namespace TaskMill

/-- Data that lists, by name and in declared order, what it depends on. -/
class Dependent (α : Type) where
  /-- The names depended on, repetitions included. -/
  dependencies : α → List String

export Dependent (dependencies)

instance : Dependent (List String) := ⟨id⟩

/-- What can be wrong with a graph, or with a request made to it. -/
inductive GraphFault where
  /-- The names along a cycle, from dependent to dependency; the first and the
  last are the same. -/
  | cycle (names : List String)
  /-- Nodes and what they depend on, where that names no node. -/
  | missing (pairs : List (String × String))
  /-- The requested name has no node. -/
  | notFound (name : String)
  deriving DecidableEq, Inhabited

/-- The sentence that tells a fault. -/
def GraphFault.message : GraphFault → String
  | cycle names => "Cycle detected in task graph: " ++ " -> ".intercalate names
  | missing pairs => "Missing dependencies: " ++ ", ".intercalate
      (pairs.map fun (task, dep) => s!"Task '{task}' depends on missing task '{dep}'")
  | notFound name => s!"Task '{name}' not found"

/-- A node: a name and the data first given for it. -/
structure Node (α : Type) where
  name : String
  data : α
  deriving DecidableEq, Inhabited

/-- Nodes, numbered from zero in the order they were added, and edges. -/
structure Graph (α : Type) where
  nodes : List (Node α)
  /-- Pairs of a dependency's number and the number of the node that has it. -/
  edges : List (Nat × Nat)
  deriving DecidableEq, Inhabited

namespace Graph

variable {α : Type}

/-- No nodes and no edges. -/
def empty : Graph α := ⟨[], []⟩

/-- How many nodes there are. -/
def size (g : Graph α) : Nat := g.nodes.length

/-- The number of the node with a name. -/
def index? (g : Graph α) (name : String) : Option Nat :=
  g.nodes.findIdx? (·.name = name)

/-- Whether a name has a node. -/
def contains (g : Graph α) (name : String) : Bool :=
  g.nodes.any (·.name = name)

/-- Adds a node for `name`; a name that has one already keeps it as it is. -/
def add (g : Graph α) (name : String) (data : α) : Graph α :=
  if g.contains name then g else { g with nodes := g.nodes ++ [⟨name, data⟩] }

/-- The number that `name` has after `add`. -/
def addedIndex (g : Graph α) (name : String) : Nat :=
  (g.index? name).getD g.size

-- ---------------------------------------------------------------------------
-- Edges
-- ---------------------------------------------------------------------------

/-- Adds an edge that is not there yet. -/
def insertEdge (edges : List (Nat × Nat)) (edge : Nat × Nat) : List (Nat × Nat) :=
  if edge ∈ edges then edges else edges ++ [edge]

variable [Dependent α]

/-- Every dependency a node declares, as the node's number, its name and the
name depended on: in node order, then in declared order. -/
def declarations (g : Graph α) : List (Nat × String × String) :=
  g.nodes.zipIdx.flatMap fun (node, i) =>
    (dependencies node.data).map fun dep => (i, node.name, dep)

/-- The edges of all declared dependencies that name a node. -/
def declaredEdges (g : Graph α) : List (Nat × Nat) :=
  g.declarations.filterMap fun (i, _, dep) => (g.index? dep).map (·, i)

/-- The declared dependencies that name no node, each with the node's name. -/
def unresolved (g : Graph α) : List (String × String) :=
  g.declarations.filterMap fun (_, task, dep) =>
    if (g.index? dep).isNone then some (task, dep) else none

/-- Gives every declared dependency its edge. If one of them names no node, no
edge is added and the fault lists all that do not. -/
def link (g : Graph α) : Except GraphFault (Graph α) :=
  if g.unresolved.isEmpty then
    .ok { g with edges := g.declaredEdges.foldl insertEdge g.edges }
  else .error (.missing g.unresolved)

/-- For each node in turn, the dependencies it declares that are not in the
graph. -/
def dangling (g : Graph α) : List (String × String) :=
  g.nodes.flatMap fun node =>
    ((dependencies node.data).filter fun dep => !g.contains dep).map fun dep => (node.name, dep)

end Graph

end TaskMill
