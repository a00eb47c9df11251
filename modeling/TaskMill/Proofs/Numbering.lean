import TaskMill.Proofs.Growth
/-!
# TaskMill — the numbers of names

A graph with a table of names grows by the same calls as a graph (`Grows`): a name is
added, the dependencies are linked, or a closure is gathered and then linked. Nodes,
edges and the table are three things, and a call writes to one or the other; whatever
calls are made to an empty graph, in whatever order, the three fit together.

Two invariants carry this, and every call keeps both. The table agrees with the nodes
(`IndexedGraph.Agrees`), so each call does to nodes and edges what the call without a
table does (`IndexedGraph.Agrees.call`). And nodes and edges stand for the names that
have been added (`Graph.Keeps`).

## Results

* `IndexedGraph.Agrees.call`, `IndexedGraph.Agrees.grows` — a graph with a table grows
  as a graph does.
* `IndexedGraph.bijOn_number?` — the table is a bijection of names and nodes.
* `IndexedGraph.consistent_of_grows` — table, nodes and edges after any calls.
-/

namespace TaskMill.IndexedGraph

variable {α : Type} [Dependent α] {g g' : IndexedGraph α} {adds more : List (String × α)}

/-- Extending a graph with its table, by what a lookup finds beneath a root, comes to
an end. -/
def Extends : Graph.Lookup α → IndexedGraph α → String → List (String × α) →
    Graph.Extended (IndexedGraph α) → Prop :=
  Graph.ExtendsBy added link

/-- Calls made to a graph with its table, one after the other. -/
def Grows : IndexedGraph α → List (String × α) → IndexedGraph α → Prop :=
  Graph.GrowsBy added link

-- ---------------------------------------------------------------------------
-- Growing with a table
-- ---------------------------------------------------------------------------

namespace Agrees

/-- **One call** keeps the table right, and does what the call without it does. -/
theorem call (h : g.Agrees) (hCall : Graph.CallBy added link g more g') :
    g'.Agrees ∧ g.toGraph.Call more g'.toGraph := by
  cases hCall with
  | add name data =>
    obtain ⟨hAdded, hGraph, -⟩ := h.add name data
    rw [hGraph]
    exact ⟨hAdded, .add name data⟩
  | linked hLink =>
    refine ⟨h.link_eq.2 _ hLink, .linked ?_⟩
    rw [← h.link_eq.1, hLink]
    rfl
  | @refused fault hLink =>
    have hGraphLink : g.toGraph.link = .error fault := by
      rw [← h.link_eq.1, hLink]
      rfl
    exact ⟨h, .refused hGraphLink⟩
  | extended hExtends =>
    obtain ⟨hLeft, hErased⟩ := h.extendsBy hExtends
    exact ⟨hLeft, .extended hErased⟩

theorem grows (h : g.Agrees) (hGrows : Grows g more g') :
    g'.Agrees ∧ g.toGraph.Grows more g'.toGraph := by
  induction hGrows with
  | refl => exact ⟨h, .refl⟩
  | tail _ hCall ih =>
    obtain ⟨hMiddle, hBefore⟩ := ih
    obtain ⟨hLast, hGraphCall⟩ := hMiddle.call hCall
    exact ⟨hLast, hBefore.tail hGraphCall⟩

end Agrees

-- ---------------------------------------------------------------------------
-- Names and numbers
-- ---------------------------------------------------------------------------

/-- The table has the names that have been added, numbered as they were first added. -/
theorem number?_eq_some_iff (hAgrees : g.Agrees) (hKeeps : g.toGraph.Keeps adds) {name : String}
    {i : Nat} : g.number? name = some i ↔ (adds.map Prod.fst).eraseDups[i]? = some name := by
  rw [hAgrees, Graph.index?_eq_some_iff hKeeps.distinct, hKeeps.names]

/-- **Numbers and names answer each other.** -/
theorem bijOn_number? (hAgrees : g.Agrees) (hKeeps : g.toGraph.Keeps adds) :
    Set.BijOn g.number? {name | name ∈ adds.map Prod.fst} (some '' Set.Iio g.size) := by
  have hSize : (adds.map Prod.fst).eraseDups.length = g.size := by
    rw [← hKeeps.names, List.length_map]
    rfl
  refine ⟨?_, ?_, ?_⟩
  · intro name hName
    obtain ⟨i, hi⟩ := List.mem_iff_getElem?.mp (List.mem_eraseDups.mpr hName)
    refine ⟨i, ?_, ((number?_eq_some_iff hAgrees hKeeps).mpr hi).symm⟩
    exact hSize ▸ (List.getElem?_eq_some_iff.mp hi).1
  · intro name hName other _ hEq
    obtain ⟨i, hi⟩ := List.mem_iff_getElem?.mp (List.mem_eraseDups.mpr hName)
    have hOther := hEq ▸ (number?_eq_some_iff hAgrees hKeeps).mpr hi
    rw [number?_eq_some_iff hAgrees hKeeps, hi] at hOther
    exact Option.some.inj hOther
  · rintro _ ⟨i, hi, rfl⟩
    have hLt : i < (adds.map Prod.fst).eraseDups.length := hSize ▸ hi
    refine ⟨(adds.map Prod.fst).eraseDups[i], ?_, ?_⟩
    · exact List.mem_eraseDups.mp (List.getElem_mem hLt)
    · rw [number?_eq_some_iff hAgrees hKeeps, List.getElem?_eq_getElem hLt]

omit [Dependent α] in
/-- The number told for a name that is added is the one that the table then has. -/
theorem number?_added (name : String) (data : α) :
    (g.added name data).number? name = some (g.add name data).1 := by
  cases hNumber : g.number? name with
  | some i => rw [added, add_of_some hNumber, hNumber]
  | none =>
    rw [added, add_of_none hNumber]
    exact NameTable.get?_insert_self

/--
**Table, nodes and edges, after any calls.** The table has one number for each name
added, following the order of the first adds, and no other names; the node of that
number has that name. Adding a name tells its number, and a name that is in the table
is added to no effect. A node, its number and its data stay as they were first added,
whatever calls follow. Edges are declared and stand once, and are all that is declared
where a call that links has succeeded.
-/
theorem consistent_of_grows (hGrows : Grows .empty adds g) :
    (Set.BijOn g.number? {name | name ∈ adds.map Prod.fst} (some '' Set.Iio g.size) ∧
      (∀ name i, g.number? name = some i ↔ (adds.map Prod.fst).eraseDups[i]? = some name) ∧
      ∀ name i, g.number? name = some i ↔ (g.nodes.map Node.name)[i]? = some name) ∧
    (∀ i node, g.nodes[i]? = some node → adds.lookup node.name = some node.data ∧
      ∀ more later, Grows g more later →
        later.nodes[i]? = some node ∧ later.number? node.name = some i) ∧
    (∀ name data, (g.add name data).2.number? name = some (g.add name data).1) ∧
    (∀ name i, g.number? name = some i → ∀ data, g.add name data = (i, g)) ∧
    g.edges.Nodup ∧ (∀ d t, (d, t) ∈ g.edges → g.Declares d t) ∧
    (∀ linked, g.link = .ok linked → ∀ d t, (d, t) ∈ linked.edges ↔ linked.Declares d t) ∧
    ∀ look root more e, Extends look g root more e → g.extend more root = e ∧
      (e.fault = none → ∀ d t, (d, t) ∈ e.graph.edges ↔ e.graph.Declares d t) := by
  obtain ⟨hAgrees, hGraph⟩ := (agrees_empty (α := α)).grows hGrows
  have h : g.toGraph.Keeps adds := Graph.Keeps.empty.grows hGraph
  refine ⟨⟨bijOn_number? hAgrees h, fun _ _ => number?_eq_some_iff hAgrees h, fun name i => ?_⟩, ?_,
    number?_added, fun _ _ hNumber _ => add_of_some hNumber, h.once, h.declared, ?_, ?_⟩
  · rw [hAgrees, Graph.index?_eq_some_iff h.distinct]
  · intro i node hNode
    refine ⟨h.first node (List.mem_of_getElem? hNode), fun more later hLater => ?_⟩
    obtain ⟨hLast, hGraphLater⟩ := hAgrees.grows hLater
    refine ⟨Graph.getElem?_of_isPrefix hGraphLater.prefix_nodes hNode, ?_⟩
    rw [hLast]
    exact Graph.index?_of_isPrefix (h.grows hGraphLater).distinct hGraphLater.prefix_nodes hNode
  · intro linked hLink d t
    refine h.mem_edges_of_link ?_
    rw [← hAgrees.link_eq.1, hLink]
    rfl
  · intro look root more e hExtends
    refine ⟨Graph.ExtendsBy.extendBy_eq hExtends, fun hFault d t => ?_⟩
    exact h.mem_edges_of_extends (hAgrees.extendsBy hExtends).2 hFault

-- ---------------------------------------------------------------------------
-- A library in pieces
-- ---------------------------------------------------------------------------

namespace Pieces

def app : IndexedGraph (List String) := empty.added "app" ["lib"]

/-- The library is there, but not what it depends on. -/
def partly : IndexedGraph (List String) := app.added "lib" ["base"]

def whole : IndexedGraph (List String) := partly.added "base" []

def linked : IndexedGraph (List String) := { whole with edges := [(1, 0), (2, 1)] }

/-- A link is refused, a root is not found, a closure is gathered but refused, and a
name is added once more. -/
theorem grows :
    Grows .empty [("app", ["lib"]), ("lib", ["base"]), ("lib", ["tool"]), ("base", [])] linked := by
  have hApp : Grows .empty [("app", ["lib"])] app := Graph.GrowsBy.refl.tail (.add "app" ["lib"])
  have hNoLib : app.link = .error (.missing [("app", "lib")]) := by decide
  have hNoRoot : Extends (.ofCatalogue []) app "lib" [] ⟨app, ["lib"], some (.notFound "lib")⟩ :=
    .notFound rfl
  have hGathers : Graph.Gathers added (.ofCatalogue [("lib", ["base"])]) ["lib"] ⟨app, []⟩
      [("lib", ["base"])] ⟨partly, ["lib", "base"]⟩ :=
    .known (by decide) (by decide) (.leaf (by decide) (by decide) (.done _))
  have hNoBase : partly.link = .error (.missing [("lib", "base")]) := by decide
  have hLinks : whole.link = .ok linked := by decide
  have hLib := ((hApp.tail (.refused hNoLib)).tail (.extended hNoRoot)).tail
    (.extended (.refused rfl hGathers hNoBase))
  exact ((hLib.tail (.add "lib" ["tool"])).tail (.add "base" [])).tail (.linked hLinks)

end Pieces

/-- The names stand in the table as they were first added. -/
theorem consistent_of_grows_pieces :
    Grows .empty [("app", ["lib"]), ("lib", ["base"]), ("lib", ["tool"]), ("base", [])]
      Pieces.linked ∧
    (∀ name i, Pieces.linked.number? name = some i ↔ ["app", "lib", "base"][i]? = some name) ∧
    Pieces.linked.nodes[1]? = some ⟨"lib", ["base"]⟩ ∧
    Pieces.linked.add "lib" ["tool"] = (1, Pieces.linked) ∧ Pieces.linked.edges.Nodup := by
  obtain ⟨⟨-, hNumbers, -⟩, -, -, hAgain, hNodup, -⟩ := consistent_of_grows Pieces.grows
  exact ⟨Pieces.grows, hNumbers, rfl, hAgain "lib" 1 (by decide) ["tool"], hNodup⟩

end TaskMill.IndexedGraph
