import TaskMill.Graph.Closure
import TaskMill.Graph.Order
import TaskMill.NameTable
/-!
# TaskMill — graphs with a table of names

Nodes are asked for by name again and again, so a graph is kept together with a
**table** that has the number of each name. Nothing but `add` writes to it; all
other operations believe it. That what they find in it is what they would find
among the nodes is not a matter of course, and is proved apart.
-/

namespace TaskMill

/-- A graph and the numbers of the names that have been added to it. -/
structure IndexedGraph (α : Type) extends Graph α where
  numbers : NameTable
  deriving DecidableEq, Inhabited

namespace IndexedGraph

variable {α : Type}

/-- No nodes, no edges, and no names. -/
def empty : IndexedGraph α := ⟨.empty, .empty⟩

/-- The number that the table has for a name. -/
def number? (g : IndexedGraph α) (name : String) : Option Nat :=
  g.numbers.get? name

/-- Whether a name is in the table. -/
def contains (g : IndexedGraph α) (name : String) : Bool :=
  (g.number? name).isSome

/-- Adds a node for `name` and tells its number; a name that is in the table
already keeps the number it has, and nothing changes. -/
def add (g : IndexedGraph α) (name : String) (data : α) : Nat × IndexedGraph α :=
  match g.number? name with
  | some i => (i, g)
  | none =>
    let i := g.nodes.length
    (i, { g with nodes := g.nodes ++ [⟨name, data⟩], numbers := g.numbers.insert name i })

/-- What `add` leaves. -/
def added (g : IndexedGraph α) (name : String) (data : α) : IndexedGraph α :=
  (g.add name data).2

/-- `root` and all it leads to, where `next` lists what a node leads to. -/
def orderAlong (g : IndexedGraph α) (next : Nat → List Nat) (root : String) :
    Except GraphFault (List (Node α)) :=
  match g.number? root with
  | none => .error (.notFound root)
  | some start => g.orderFrom next start

/-- `root` and all it depends on, dependencies first, siblings by `key`. -/
def orderBy {κ : Type} [Ord κ] (g : IndexedGraph α) (root : String) (key : Node α → κ) :
    Except GraphFault (List (Node α)) :=
  g.orderAlong (g.siblings fun i => g.nodes[i]?.map key) root

/-- `root` and all it depends on, dependencies first, siblings in the order in
which they were added. -/
def order (g : IndexedGraph α) (root : String) : Except GraphFault (List (Node α)) :=
  g.orderAlong (g.siblings id) root

variable [Dependent α]

/-- The edges of all declared dependencies whose names are in the table. -/
def declaredEdges (g : IndexedGraph α) : List (Nat × Nat) :=
  g.declarations.filterMap fun (i, _, dep) => (g.number? dep).map (·, i)

/-- The declared dependencies whose names are not in the table, each with the
node's name. -/
def unresolved (g : IndexedGraph α) : List (String × String) :=
  g.declarations.filterMap fun (_, task, dep) =>
    if (g.number? dep).isNone then some (task, dep) else none

/-- Gives every declared dependency its edge, or none if a name is missing. -/
def link (g : IndexedGraph α) : Except GraphFault (IndexedGraph α) :=
  if g.unresolved.isEmpty then
    .ok { g with edges := g.declaredEdges.foldl Graph.insertEdge g.edges }
  else .error (.missing g.unresolved)

/-- Extends the graph by `root` and everything it depends on, and links it. -/
def extend (g : IndexedGraph α) (catalogue : List (String × α)) (root : String) :
    Graph.Extended (IndexedGraph α) :=
  Graph.extendBy added link g catalogue root

/-- For each node in turn, the dependencies it declares that are not in the
table. -/
def dangling (g : IndexedGraph α) : List (String × String) :=
  g.nodes.flatMap fun node =>
    ((dependencies node.data).filter fun dep => !g.contains dep).map fun dep => (node.name, dep)

/-- Everything wrong with the graph as a whole: what dangles first, then a
cycle. -/
def faults (g : IndexedGraph α) : List GraphFault :=
  (if g.dangling.isEmpty then [] else [.missing g.dangling])
    ++ (g.findCycle?.map GraphFault.cycle).toList

/-- Fails with the first thing that is wrong with the graph. -/
def check (g : IndexedGraph α) : Except GraphFault Unit :=
  match g.faults with
  | [] => .ok ()
  | fault :: _ => .error fault

end IndexedGraph

end TaskMill
