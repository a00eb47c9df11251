import TaskMill.Graph.Basic
import TaskMill.Graph.Search
/-!
# TaskMill — execution order

The order in which a graph's nodes are to be handled: each after everything it
depends on, siblings by a key and then by the order in which they were added.
Also the check of a whole graph, which needs no order.
-/

namespace TaskMill.Graph

variable {α : Type}

/-- The nodes that node `i` has an edge from. -/
def incoming (g : Graph α) (i : Nat) : List Nat :=
  g.edges.filterMap fun (dep, node) => if node = i then some dep else none

/-- Node numbers compared by a key first. -/
def keyThenIndex {κ : Type} [Ord κ] (key : Nat → κ) (i j : Nat) : Ordering :=
  (compare (key i) (key j)).then (compare i j)

/-- What node `i` depends on, in ascending order of the key and, where the keys
are equal, of the node number. -/
def siblings {κ : Type} [Ord κ] (g : Graph α) (key : Nat → κ) (i : Nat) : List Nat :=
  (g.incoming i).mergeSort fun a b => (keyThenIndex key a b).isLE

/-- The name of a node. -/
def nameAt (g : Graph α) (i : Nat) : String :=
  (g.nodes[i]?.map Node.name).getD ""

/-- Node `start` and all it leads to, where `next` lists what a node leads to. -/
def orderFrom (g : Graph α) (next : Nat → List Nat) (start : Nat) :
    Except GraphFault (List (Node α)) :=
  match searchFrom g.size next start with
  | .error cycle => .error (.cycle (cycle.map g.nameAt))
  | .ok order => .ok (order.filterMap (g.nodes[·]?))

/-- `root` and all it leads to, where `next` lists what a node leads to. -/
def orderAlong (g : Graph α) (next : Nat → List Nat) (root : String) :
    Except GraphFault (List (Node α)) :=
  match g.index? root with
  | none => .error (.notFound root)
  | some start => g.orderFrom next start

/-- `root` and all it depends on, dependencies first, siblings by `key`. -/
def orderBy {κ : Type} [Ord κ] (g : Graph α) (root : String) (key : Node α → κ) :
    Except GraphFault (List (Node α)) :=
  g.orderAlong (g.siblings fun i => g.nodes[i]?.map key) root

/-- `root` and all it depends on, dependencies first, siblings in the order in
which they were added. -/
def order (g : Graph α) (root : String) : Except GraphFault (List (Node α)) :=
  g.orderAlong (g.siblings id) root

/-- The names along a cycle, if there is one. -/
def findCycle? (g : Graph α) : Option (List String) :=
  (searchCycle? g.size (g.siblings id)).map (·.map g.nameAt)

/-- Everything wrong with the graph as a whole: what dangles first, then a
cycle. -/
def faults [Dependent α] (g : Graph α) : List GraphFault :=
  (if g.dangling.isEmpty then [] else [.missing g.dangling])
    ++ (g.findCycle?.map GraphFault.cycle).toList

/-- Fails with the first thing that is wrong with the graph. -/
def check [Dependent α] (g : Graph α) : Except GraphFault Unit :=
  match g.faults with
  | [] => .ok ()
  | fault :: _ => .error fault

end TaskMill.Graph
