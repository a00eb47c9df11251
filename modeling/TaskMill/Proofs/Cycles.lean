import TaskMill.Proofs.Growth
/-!
# TaskMill — cycles are found exactly

A graph **has a cycle** if its edges lead from some node back to it (`HasCycle`).
Only edges count: what a node declares and no call has linked closes no cycle.

Two searches look for cycles. One visits all nodes, in turn, and keeps its marks
from one to the next; the other visits a root, along siblings sorted by a key. The
first finds a cycle exactly if there is one, the second exactly if there is one
beneath its root (`CycleBeneath`): neither misses a cycle because of a key, of what
another node has been visited for, or of what leads into the cycle.

## Results

* `WellFormed.findCycle?_eq_none_iff` — the search from all nodes.
* `WellFormed.orderBy_eq_ok_iff`, `WellFormed.orderBy_eq_cycle_iff` — the search from
  a root.
* `cycles_found_exactly` — both, for every graph that calls lead to.
-/

namespace TaskMill.Graph

open Relation (ReflTransGen TransGen)

variable {α : Type} {g : Graph α}

/-- From some node, edges lead back to it. -/
def HasCycle (g : Graph α) : Prop :=
  ∃ i, TransGen (fun node dep => (dep, node) ∈ g.edges) i i

/-- Something that `root` depends on, over any number of steps, depends on itself. -/
def CycleBeneath (g : Graph α) (root : String) : Prop :=
  ∃ a, ReflTransGen g.DependsOn root a ∧ TransGen g.DependsOn a a

-- ---------------------------------------------------------------------------
-- Names and numbers
-- ---------------------------------------------------------------------------

/-- Only what has a node depends on something. -/
theorem DependsOn.contains {a b : String} (h : g.DependsOn a b) : g.contains a = true := by
  obtain ⟨i, j, ha, -, -⟩ := h
  exact contains_iff.mpr (List.mem_of_getElem? ha)

theorem contains_of_transGen {a b : String} (h : TransGen g.DependsOn a b) :
    g.contains a = true := by
  obtain ⟨_, hStep, -⟩ := TransGen.head'_iff.mp h
  exact hStep.contains

/-- Beneath a name without a node there is nothing. -/
theorem CycleBeneath.contains {root : String} (h : g.CycleBeneath root) :
    g.contains root = true := by
  obtain ⟨a, hReached, hCircle⟩ := h
  rcases Relation.reflTransGen_iff_eq_or_transGen.mp hReached with rfl | hBeneath
  · exact contains_of_transGen hCircle
  · exact contains_of_transGen hBeneath

namespace WellFormed

/-- What a name depends on, an edge leads to from its node. -/
theorem exists_edge (hg : g.WellFormed) {i : Nat} (hi : i < g.size) {b : String}
    (h : g.DependsOn (g.nameAt i) b) : ∃ j < g.size, (j, i) ∈ g.edges ∧ g.nameAt j = b := by
  obtain ⟨j, hLeads, hName⟩ := hg.exists_leadsTo (fun _ _ => mem_incoming) hi h
  have hEdge := mem_incoming.mp hLeads
  exact ⟨j, (hg.bounded _ hEdge).1, hEdge, hName⟩

/-- What names depend on, over any number of steps, their nodes lead to. -/
theorem exists_edges (hg : g.WellFormed) {i : Nat} (hi : i < g.size) {b : String}
    (h : TransGen g.DependsOn (g.nameAt i) b) :
    ∃ j < g.size, TransGen (fun node dep => (dep, node) ∈ g.edges) i j ∧ g.nameAt j = b := by
  induction h with
  | single hFirst =>
    obtain ⟨j, hj, hEdge, hName⟩ := hg.exists_edge hi hFirst
    exact ⟨j, hj, .single hEdge, hName⟩
  | tail _ hLast ih =>
    obtain ⟨k, hk, hEdges, rfl⟩ := ih
    obtain ⟨j, hj, hEdge, hName⟩ := hg.exists_edge hk hLast
    exact ⟨j, hj, hEdges.tail hEdge, hName⟩

/-- A cycle of nodes is a name that depends on itself. -/
theorem hasCycle_iff (hg : g.WellFormed) : g.HasCycle ↔ ∃ a, TransGen g.DependsOn a a := by
  constructor
  · rintro ⟨i, hCircle⟩
    refine ⟨g.nameAt i, hCircle.lift g.nameAt fun node dep hEdge => ?_⟩
    exact hg.dependsOn_nameAt (fun _ _ => mem_incoming) (mem_incoming.mpr hEdge)
  · rintro ⟨a, hCircle⟩
    obtain ⟨i, hi⟩ := List.mem_iff_getElem?.mp (contains_iff.mp (contains_of_transGen hCircle))
    have hLt := lt_size_of_name hi
    obtain rfl := nameAt_eq hi
    obtain ⟨j, hj, hEdges, hName⟩ := hg.exists_edges hLt hCircle
    -- distinct nodes have distinct names, so the way has come back to its node
    obtain rfl := hg.nameAt_inj hj hLt hName
    exact ⟨j, hEdges⟩

-- ---------------------------------------------------------------------------
-- The search from all nodes
-- ---------------------------------------------------------------------------

theorem findCycle?_eq_none_iff (hg : g.WellFormed) : g.findCycle? = none ↔ ¬ g.HasCycle := by
  have hSpec := findCycle?_spec hg
  rw [hg.hasCycle_iff]
  cases hFound : g.findCycle? with
  | none =>
    rw [hFound] at hSpec
    simpa using hSpec
  | some cycle =>
    rw [hFound] at hSpec
    obtain ⟨a, -, hCircle⟩ := hSpec.exists_transGen
    simpa using ⟨a, hCircle⟩

-- ---------------------------------------------------------------------------
-- The search from a root
-- ---------------------------------------------------------------------------

variable {κ : Type} [Ord κ] {key : Node α → κ} {root : String}

/-- Beneath a root that has an order there is no cycle. -/
theorem not_cycleBeneath (hg : g.WellFormed) {nodes : List (Node α)}
    (hOrder : g.orderBy root key = .ok nodes) : ¬ g.CycleBeneath root := by
  rintro ⟨a, hReached, hCircle⟩
  have hSpec := orderBy_spec hg key root
  rw [hOrder] at hSpec
  obtain ⟨-, hNodup, hFounded, hMem⟩ := hSpec
  exact hFounded.irrefl hNodup ((hMem a).mpr hReached) hCircle

/-- A cycle that is told lies beneath the root. -/
theorem isCycle_of_orderBy (hg : g.WellFormed) {cycle : List String}
    (hOrder : g.orderBy root key = .error (.cycle cycle)) :
    IsCycle g.DependsOn cycle ∧ ∀ name ∈ cycle, ReflTransGen g.DependsOn root name := by
  have hSpec := orderBy_spec hg key root
  rw [hOrder] at hSpec
  rcases hSpec with ⟨hFault, -⟩ | ⟨_, hFault, hCycle⟩
  · cases hFault
  · obtain rfl := GraphFault.cycle.inj hFault
    exact hCycle

theorem cycleBeneath_of_orderBy (hg : g.WellFormed) {cycle : List String}
    (hOrder : g.orderBy root key = .error (.cycle cycle)) : g.CycleBeneath root := by
  obtain ⟨hCycle, hReached⟩ := hg.isCycle_of_orderBy hOrder
  obtain ⟨a, ha, hCircle⟩ := hCycle.exists_transGen
  exact ⟨a, hReached a ha, hCircle⟩

theorem orderBy_eq_cycle_iff (hg : g.WellFormed) :
    (∃ cycle, g.orderBy root key = .error (.cycle cycle)) ↔ g.CycleBeneath root := by
  constructor
  · rintro ⟨cycle, hOrder⟩
    exact hg.cycleBeneath_of_orderBy hOrder
  · intro hBeneath
    have hSpec := orderBy_spec hg key root
    cases hOrder : g.orderBy root key with
    | ok nodes => exact absurd hBeneath (hg.not_cycleBeneath hOrder)
    | error fault =>
      rw [hOrder] at hSpec
      rcases hSpec with ⟨-, hUnknown⟩ | ⟨cycle, rfl, -⟩
      · simp [hBeneath.contains] at hUnknown
      · exact ⟨cycle, rfl⟩

theorem orderBy_eq_ok_iff (hg : g.WellFormed) :
    (∃ nodes, g.orderBy root key = .ok nodes) ↔
      g.contains root = true ∧ ¬ g.CycleBeneath root := by
  have hSpec := orderBy_spec hg key root
  cases hOrder : g.orderBy root key with
  | ok nodes =>
    rw [hOrder] at hSpec
    obtain ⟨hNodes, -, -, hMem⟩ := hSpec
    have hRoot : root ∈ g.nodes.map Node.name := List.map_subset _ hNodes ((hMem root).mpr .refl)
    simp [contains_iff.mpr hRoot, hg.not_cycleBeneath hOrder]
  | error fault =>
    rw [hOrder] at hSpec
    rcases hSpec with ⟨-, hUnknown⟩ | ⟨cycle, rfl, -⟩
    · simp [hUnknown]
    · simp [hg.cycleBeneath_of_orderBy hOrder]

end WellFormed

/--
**Cycles are found exactly.** In a graph that calls lead to, the search from all
nodes finds none exactly if there is none, and exactly if every name has an order by
every key; and whatever the key, the search from a root tells a cycle exactly if
there is one beneath the root. What is told has at least two entries, begins and ends
with the same name, holds no other name twice and goes from each name to one that it
depends on; told for a root, it lies beneath it.
-/
theorem cycles_found_exactly [Dependent α] {adds : List (String × α)}
    (hGrows : Grows .empty adds g) :
    (g.findCycle? = none ↔ ¬ g.HasCycle) ∧
    (g.findCycle? = none ↔ ∀ name, g.contains name = true →
      ∀ (κ : Type) [Ord κ] (key : Node α → κ), ∃ nodes, g.orderBy name key = .ok nodes) ∧
    (∀ (κ : Type) [Ord κ] (key : Node α → κ) (root : String),
      (∃ cycle, g.orderBy root key = .error (.cycle cycle)) ↔ g.CycleBeneath root) ∧
    (∀ cycle, g.findCycle? = some cycle → IsCycle g.DependsOn cycle) ∧
    ∀ (κ : Type) [Ord κ] (key : Node α → κ) (root : String) (cycle : List String),
      g.orderBy root key = .error (.cycle cycle) →
        IsCycle g.DependsOn cycle ∧ ∀ name ∈ cycle, ReflTransGen g.DependsOn root name := by
  have hg : g.WellFormed := (Keeps.empty.grows hGrows).wellFormed
  refine ⟨hg.findCycle?_eq_none_iff, ?_, fun _ _ _ _ => hg.orderBy_eq_cycle_iff, ?_,
    fun _ _ _ _ _ => hg.isCycle_of_orderBy⟩
  · rw [hg.findCycle?_eq_none_iff, hg.hasCycle_iff]
    constructor
    · rintro hNone name hName κ _ key
      refine hg.orderBy_eq_ok_iff.mpr ⟨hName, ?_⟩
      rintro ⟨a, -, hCircle⟩
      exact hNone ⟨a, hCircle⟩
    · rintro hOrders ⟨a, hCircle⟩
      -- a name on the cycle has an order, and so none beneath it
      obtain ⟨nodes, hOrder⟩ := hOrders a (contains_of_transGen hCircle) Nat fun _ => 0
      exact hg.not_cycleBeneath hOrder ⟨a, .refl, hCircle⟩
  · intro cycle hFound
    have hSpec := findCycle?_spec hg
    rwa [hFound] at hSpec

-- ---------------------------------------------------------------------------
-- A tangle
-- ---------------------------------------------------------------------------

namespace Tangle

def adds : List (String × List String) :=
  [("base", []), ("app", ["base", "lib"]), ("lib", ["tool"]), ("tool", ["lib"]), ("late", ["late"])]

def nodes : List (Node (List String)) := adds.map fun entry => ⟨entry.1, entry.2⟩

/-- The last name was added when the others had been linked. -/
def graph : Graph (List String) := ⟨nodes, [(0, 1), (2, 1), (3, 2), (2, 3)]⟩

theorem grows : Grows .empty adds graph := by
  have hEmpty : Grows (.empty : Graph (List String)) [] .empty := .refl
  have hAdded := (((hEmpty.tail (.add "base" [])).tail (.add "app" ["base", "lib"])).tail
    (.add "lib" ["tool"])).tail (.add "tool" ["lib"])
  have hLink : (⟨nodes.dropLast, []⟩ : Graph (List String)).link =
      .ok ⟨nodes.dropLast, [(0, 1), (2, 1), (3, 2), (2, 3)]⟩ := by decide
  exact (hAdded.tail (.linked hLink)).tail (.add "late" ["late"])

theorem hasCycle : graph.HasCycle :=
  ⟨2, .tail (.single (show (3, 2) ∈ graph.edges by decide)) (by decide)⟩

theorem cycleBeneath_app : graph.CycleBeneath "app" :=
  ⟨"lib", .single ⟨1, 2, rfl, rfl, by decide⟩,
    .tail (.single ⟨2, 3, rfl, rfl, by decide⟩) ⟨3, 2, rfl, rfl, by decide⟩⟩

/-- What `late` declares is no edge. -/
theorem not_cycleBeneath_late : ¬ graph.CycleBeneath "late" := by
  have hNothing : ∀ b, ¬ graph.DependsOn "late" b := by
    rintro b ⟨i, j, hi, -, hEdge⟩
    simp only [graph, List.mem_cons, Prod.mk.injEq, List.not_mem_nil, or_false] at hEdge
    rcases hEdge with ⟨-, rfl⟩ | ⟨-, rfl⟩ | ⟨-, rfl⟩ | ⟨-, rfl⟩
    all_goals simp [graph, nodes, adds] at hi
  rintro ⟨a, hReached, hCircle⟩
  rcases Relation.reflTransGen_iff_eq_or_transGen.mp hReached with rfl | hBeneath
  · obtain ⟨b, hStep, -⟩ := TransGen.head'_iff.mp hCircle
    exact hNothing b hStep
  · obtain ⟨b, hStep, -⟩ := TransGen.head'_iff.mp hBeneath
    exact hNothing b hStep

end Tangle

/-- A cycle is found behind a node that does not lie on it, and none where a name is
declared to depend on itself but has not been linked. -/
theorem cycles_found_exactly_tangle : Grows .empty Tangle.adds Tangle.graph ∧
    (∃ cycle, Tangle.graph.findCycle? = some cycle) ∧
    (∃ cycle, Tangle.graph.orderBy "app" (fun node => node.data.length) = .error (.cycle cycle) ∧
      IsCycle Tangle.graph.DependsOn cycle) ∧
    ¬ ∃ cycle, Tangle.graph.orderBy "late" (fun node => node.data.length) =
      .error (.cycle cycle) := by
  obtain ⟨hNone, -, hCycles, -, hTold⟩ := cycles_found_exactly Tangle.grows
  refine ⟨Tangle.grows, ?_, ?_, mt (hCycles Nat _ "late").mp Tangle.not_cycleBeneath_late⟩
  · exact Option.ne_none_iff_exists'.mp fun hFound => hNone.mp hFound Tangle.hasCycle
  · obtain ⟨cycle, hOrder⟩ := (hCycles Nat (fun node => node.data.length) "app").mpr
      Tangle.cycleBeneath_app
    exact ⟨cycle, hOrder, (hTold Nat _ "app" cycle hOrder).1⟩

end TaskMill.Graph
