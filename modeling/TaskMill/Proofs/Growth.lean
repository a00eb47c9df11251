import TaskMill.Proofs.Siblings
import TaskMill.Proofs.Tables
/-!
# TaskMill — how graphs grow

A graph grows by calls: a name is added, the dependencies are linked, or a
closure is gathered and then linked. A call may fail. Whatever calls are made to
an empty graph, in whatever order (`Grows`), the nodes stand for the names added,
each once and in the order in which they were first added, with the data they
were first added with, and no edge is there that is not declared (`Keeps`).

## Results

* `Graph.Call.prefix_nodes` — no call takes a node away.
* `Graph.Keeps.call`, `Graph.Keeps.grows` — what one call preserves, and what any
  calls do.
-/

namespace TaskMill.Graph

variable {α : Type}

-- ---------------------------------------------------------------------------
-- Nodes stay
-- ---------------------------------------------------------------------------

section Nodes

variable {g g' : Graph α}

theorem getElem?_of_isPrefix (hPrefix : g.nodes <+: g'.nodes) {i : Nat} {node : Node α}
    (hNode : g.nodes[i]? = some node) : g'.nodes[i]? = some node := by
  obtain ⟨hi, hEq⟩ := List.getElem?_eq_some_iff.mp hNode
  rw [List.prefix_iff_getElem?.mp hPrefix i hi, hEq]

/-- A node that stays keeps its number. -/
theorem index?_of_isPrefix (hDistinct : (g'.nodes.map Node.name).Nodup)
    (hPrefix : g.nodes <+: g'.nodes) {i : Nat} {node : Node α} (hNode : g.nodes[i]? = some node) :
    g'.index? node.name = some i := by
  rw [index?_eq_some_iff hDistinct, List.getElem?_map, getElem?_of_isPrefix hPrefix hNode]
  rfl

theorem prefix_add (g : Graph α) (name : String) (data : α) :
    g.nodes <+: (g.add name data).nodes := by
  unfold add
  split
  · exact List.prefix_rfl
  · exact List.prefix_append _ _

theorem prefix_foldl_add (adds : List (String × α)) (g : Graph α) :
    g.nodes <+: (adds.foldl (fun g entry => g.add entry.1 entry.2) g).nodes := by
  induction adds generalizing g with
  | nil => exact List.prefix_rfl
  | cons entry rest ih => exact (prefix_add g entry.1 entry.2).trans (ih _)

end Nodes

variable [Dependent α] {γ : Type}

-- ---------------------------------------------------------------------------
-- Calls
-- ---------------------------------------------------------------------------

/-- Extending a graph by what a lookup finds beneath a root comes to an end. -/
def Extends : Lookup α → Graph α → String → List (String × α) → Extended (Graph α) → Prop :=
  ExtendsBy add link

/-- One call made to what grows by `add` and `link`: the names it adds, with
their data, and what it leaves. -/
inductive CallBy (add : γ → String → α → γ) (link : γ → Except GraphFault γ) (g : γ) :
    List (String × α) → γ → Prop where
  | add (name : String) (data : α) : CallBy add link g [(name, data)] (add g name data)
  | linked {linked : γ} (hLink : link g = .ok linked) : CallBy add link g [] linked
  | refused {fault : GraphFault} (hLink : link g = .error fault) : CallBy add link g [] g
  | extended {look : Lookup α} {root : String} {adds : List (String × α)} {e : Extended γ}
      (hExtends : ExtendsBy add link look g root adds e) : CallBy add link g adds e.graph

/-- Calls made one after the other. -/
inductive GrowsBy (add : γ → String → α → γ) (link : γ → Except GraphFault γ) (g : γ) :
    List (String × α) → γ → Prop where
  | refl : GrowsBy add link g [] g
  | tail {adds more : List (String × α)} {g' g'' : γ} (hGrows : GrowsBy add link g adds g')
      (hCall : CallBy add link g' more g'') : GrowsBy add link g (adds ++ more) g''

/-- One call made to a graph. -/
def Call : Graph α → List (String × α) → Graph α → Prop :=
  CallBy add link

/-- Calls made to a graph, one after the other. -/
def Grows : Graph α → List (String × α) → Graph α → Prop :=
  GrowsBy add link

/-- The data of node `t` list the name of node `d`. -/
def Declares (g : Graph α) (d t : Nat) : Prop :=
  ∃ dependency dependent, g.nodes[d]? = some dependency ∧ g.nodes[t]? = some dependent ∧
    dependency.name ∈ dependencies dependent.data

/-- A graph stands for the names added to it. -/
structure Keeps (adds : List (String × α)) (g : Graph α) : Prop where
  distinct : (g.nodes.map Node.name).Nodup
  names    : g.nodes.map Node.name = (adds.map Prod.fst).eraseDups
  first    : ∀ node ∈ g.nodes, adds.lookup node.name = some node.data
  once     : g.edges.Nodup
  declared : ∀ d t, (d, t) ∈ g.edges → g.Declares d t

section Growth

variable {g g' linked : Graph α} {adds more : List (String × α)}

/-- **No call takes a node away or gives it another number.** -/
theorem Call.prefix_nodes (h : Call g more g') : g.nodes <+: g'.nodes := by
  cases h with
  | add name data => exact prefix_add g name data
  | linked hLink => rw [(linked_of_link hLink).2.1]
  | refused => exact List.prefix_rfl
  | extended hExtends =>
    cases hExtends with
    | notFound => exact List.prefix_rfl
    | refused _ hGathers _ =>
      rw [hGathers.graph_eq]
      exact prefix_foldl_add _ g
    | linked _ hGathers hLink =>
      rw [(linked_of_link hLink).2.1, hGathers.graph_eq]
      exact prefix_foldl_add _ g

theorem Grows.prefix_nodes (h : Grows g more g') : g.nodes <+: g'.nodes := by
  induction h with
  | refl => exact List.prefix_rfl
  | tail _ hCall ih => exact ih.trans (Call.prefix_nodes hCall)

-- ---------------------------------------------------------------------------
-- What a graph keeps
-- ---------------------------------------------------------------------------

theorem Declares.mono (hPrefix : g.nodes <+: g'.nodes) {d t : Nat} (h : g.Declares d t) :
    g'.Declares d t := by
  obtain ⟨dependency, dependent, hd, ht, hDep⟩ := h
  exact ⟨dependency, dependent, getElem?_of_isPrefix hPrefix hd, getElem?_of_isPrefix hPrefix ht,
    hDep⟩

/-- In a graph of distinct names, the edges to be are the declared pairs of
nodes. -/
theorem mem_declaredEdges_iff (hDistinct : (g.nodes.map Node.name).Nodup) {d t : Nat} :
    (d, t) ∈ g.declaredEdges ↔ g.Declares d t := by
  simp only [mem_declaredEdges, index?_eq_some_iff hDistinct, List.getElem?_map,
    Option.map_eq_some_iff]
  constructor
  · rintro ⟨dependent, ht, _, hDep, dependency, hd, rfl⟩
    exact ⟨dependency, dependent, hd, ht, hDep⟩
  · rintro ⟨dependency, dependent, hd, ht, hDep⟩
    exact ⟨dependent, ht, _, hDep, dependency, hd, rfl⟩

namespace Keeps

theorem empty : Keeps [] (Graph.empty : Graph α) where
  distinct := .nil
  names    := rfl
  first    := by simp [Graph.empty]
  once     := .nil
  declared := by simp [Graph.empty]

/-- The edges of a graph that calls lead to join nodes. -/
theorem wellFormed (h : Keeps adds g) : g.WellFormed where
  distinct := h.distinct
  bounded := by
    rintro ⟨d, t⟩ hEdge
    obtain ⟨_, _, hd, ht, -⟩ := h.declared d t hEdge
    exact ⟨(List.getElem?_eq_some_iff.mp hd).1, (List.getElem?_eq_some_iff.mp ht).1⟩

theorem contains_iff (h : Keeps adds g) {name : String} :
    g.contains name = true ↔ name ∈ adds.map Prod.fst := by
  rw [Graph.contains_iff, h.names, List.mem_eraseDups]

/-- What a name that has a node is added with once more is passed over. -/
theorem again (h : Keeps adds g) {name : String} (hOld : g.contains name = true) (data : α) :
    Keeps (adds ++ [(name, data)]) g where
  distinct := h.distinct
  names    := by
    have hMem := h.contains_iff.mp hOld
    rw [h.names, List.map_append, List.eraseDups_append]
    simp [List.removeAll, hMem]
  first    := by
    intro node hNode
    rw [List.lookup_append, h.first node hNode, Option.some_or]
  once     := h.once
  declared := h.declared

/-- A name that is new gets the next number. -/
theorem new (h : Keeps adds g) {name : String} (hNew : ¬ g.contains name = true) (data : α) :
    Keeps (adds ++ [(name, data)]) { g with nodes := g.nodes ++ [⟨name, data⟩] } where
  distinct := by
    rw [List.map_append, List.nodup_append]
    refine ⟨h.distinct, by simp, ?_⟩
    intro a ha b hb
    rw [List.map_singleton, List.mem_singleton] at hb
    exact hb ▸ ne_of_mem_of_not_mem ha (mt Graph.contains_iff.mpr hNew)
  names    := by
    have hMem := mt h.contains_iff.mpr hNew
    rw [List.map_append, h.names, List.map_append, List.eraseDups_append]
    simp [List.removeAll, hMem, List.eraseDups_cons]
  first    := by
    intro node hNode
    rw [List.lookup_append]
    rcases List.mem_append.mp hNode with hOld | hLast
    · rw [h.first node hOld, Option.some_or]
    · obtain rfl := List.mem_singleton.mp hLast
      have hNone : adds.lookup name = none := by
        exact Table.lookup_eq_none_iff.mpr (mt h.contains_iff.mpr hNew)
      rw [hNone, Option.none_or, List.lookup_cons_self]
  once     := h.once
  declared := fun d t hEdge => (h.declared d t hEdge).mono (List.prefix_append _ _)

theorem add (h : Keeps adds g) (name : String) (data : α) :
    Keeps (adds ++ [(name, data)]) (g.add name data) := by
  unfold Graph.add
  split
  case isTrue hOld => exact h.again hOld data
  case isFalse hNew => exact h.new hNew data

theorem foldl_add (h : Keeps adds g) :
    Keeps (adds ++ more) (more.foldl (fun g entry => g.add entry.1 entry.2) g) := by
  induction more generalizing adds g with
  | nil => rwa [List.append_nil]
  | cons entry rest ih =>
    rw [List.append_cons]
    exact ih (h.add entry.1 entry.2)

/-- Once linked, nodes are joined exactly as their data declare. -/
theorem mem_edges_of_link (h : Keeps adds g) (hLink : g.link = .ok linked) {d t : Nat} :
    (d, t) ∈ linked.edges ↔ linked.Declares d t := by
  obtain ⟨-, hNodes, hMem⟩ := linked_of_link hLink
  have hSame : linked.Declares d t ↔ g.Declares d t := by
    unfold Declares
    rw [hNodes]
  rw [hMem, mem_declaredEdges_iff h.distinct, hSame]
  exact or_iff_right_of_imp (h.declared d t)

/-- Once a closure has been gathered and linked, so they are. -/
theorem mem_edges_of_extends (h : Keeps adds g) {look : Lookup α} {root : String}
    {e : Extended (Graph α)} (hExtends : Extends look g root more e) (hFault : e.fault = none)
    {d t : Nat} : (d, t) ∈ e.graph.edges ↔ e.graph.Declares d t := by
  cases hExtends with
  | notFound => cases hFault
  | refused => cases hFault
  | linked _ hGathers hLink =>
    have hFound : Keeps (adds ++ more) _ := h.foldl_add
    rw [← hGathers.graph_eq] at hFound
    exact hFound.mem_edges_of_link hLink

theorem link (h : Keeps adds g) (hLink : g.link = .ok linked) : Keeps adds linked := by
  obtain ⟨-, hNodes, -⟩ := linked_of_link hLink
  exact {
    distinct := hNodes ▸ h.distinct
    names := hNodes ▸ h.names
    first := hNodes ▸ h.first
    once := edges_nodup_of_link h.once hLink
    declared := fun _ _ => (h.mem_edges_of_link hLink).mp }

/-- **One call.** Whether it succeeds or not, the graph stands for all that has
been added by then. -/
theorem call (h : Keeps adds g) (hCall : Call g more g') : Keeps (adds ++ more) g' := by
  cases hCall with
  | add name data => exact h.add name data
  | linked hLink =>
    rw [List.append_nil]
    exact h.link hLink
  | refused => rwa [List.append_nil]
  | extended hExtends =>
    cases hExtends with
    | notFound => rwa [List.append_nil]
    | refused _ hGathers _ =>
      rw [hGathers.graph_eq]
      exact h.foldl_add
    | linked _ hGathers hLink =>
      refine link ?_ hLink
      rw [hGathers.graph_eq]
      exact h.foldl_add

theorem grows (h : Keeps adds g) (hGrows : Grows g more g') : Keeps (adds ++ more) g' := by
  induction hGrows with
  | refl => rwa [List.append_nil]
  | tail _ hCall ih =>
    rw [← List.append_assoc]
    exact ih.call hCall

end Keeps

end Growth

end TaskMill.Graph
