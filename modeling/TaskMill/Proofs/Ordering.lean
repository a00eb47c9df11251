import TaskMill.Graph.Order
import TaskMill.Proofs.Closure
import TaskMill.Proofs.Search
/-!
# TaskMill — linked graphs and their orders

An edge of a graph says that one name **depends on** another (`DependsOn`).
Linking a graph either gives every declared dependency its edge, or fails and
names a declaration that leads nowhere. An order made from the edges of a
well-formed graph holds a root and all it depends on, dependencies first; where
there is none, the answer is a cycle among them.

## Results

* `link_spec`      — linking adds the declared edges, all or none.
* `orderAlong_spec` — the order is founded and covers the root's closure, or a
  cycle lies in the closure.
* `findCycle?_spec` — no node depends on itself, or a cycle is found.
-/

namespace TaskMill.Graph

open Relation (ReflTransGen TransGen)

variable {α : Type} {g : Graph α}

/-- By its edges, the node of `a` depends on the node of `b`. -/
def DependsOn (g : Graph α) (a b : String) : Prop :=
  ∃ i j, (g.nodes.map Node.name)[i]? = some a ∧ (g.nodes.map Node.name)[j]? = some b ∧
    (j, i) ∈ g.edges

/-- Names are distinct and edges join nodes. -/
structure WellFormed (g : Graph α) : Prop where
  distinct : (g.nodes.map Node.name).Nodup
  bounded  : ∀ e ∈ g.edges, e.1 < g.size ∧ e.2 < g.size

-- ---------------------------------------------------------------------------
-- Orders
-- ---------------------------------------------------------------------------

theorem mem_incoming {i j : Nat} : j ∈ g.incoming i ↔ (j, i) ∈ g.edges := by
  simp [incoming]

/-- Whatever the key, the siblings are the nodes depended on. -/
theorem mem_siblings {κ : Type} [Ord κ] {key : Nat → κ} {i j : Nat} :
    j ∈ g.siblings key i ↔ (j, i) ∈ g.edges := by
  rw [siblings, List.mem_mergeSort, mem_incoming]

theorem getElem?_names {i : Nat} (hi : i < g.size) :
    (g.nodes.map Node.name)[i]? = some (g.nameAt i) := by
  have hi' : i < g.nodes.length := hi
  simp [nameAt, List.getElem?_eq_getElem hi']

theorem nameAt_eq {i : Nat} {name : String} (h : (g.nodes.map Node.name)[i]? = some name) :
    g.nameAt i = name := by
  rw [List.getElem?_map] at h
  rw [nameAt, h]
  rfl

theorem lt_size_of_name {i : Nat} {name : String}
    (h : (g.nodes.map Node.name)[i]? = some name) : i < g.size := by
  simpa [size] using (List.getElem?_eq_some_iff.mp h).1

/-- In a graph of distinct names, nodes of one name are one node. -/
theorem WellFormed.nameAt_inj (hg : g.WellFormed) {i j : Nat} (hi : i < g.size) (hj : j < g.size)
    (h : g.nameAt i = g.nameAt j) : i = j := by
  have hEq : (g.nodes.map Node.name)[i]? = (g.nodes.map Node.name)[j]? := by
    rw [getElem?_names hi, getElem?_names hj, h]
  exact (List.getElem?_inj (by simpa [size] using hi) hg.distinct).mp hEq

/-- The names of the nodes with some numbers are the names at these numbers. -/
theorem map_name_filterMap (order : List Nat) (hOrder : ∀ i ∈ order, i < g.size) :
    (order.filterMap (g.nodes[·]?)).map Node.name = order.map g.nameAt := by
  induction order with
  | nil => rfl
  | cons i rest ih =>
    have hi : i < g.nodes.length := hOrder i (by simp)
    rw [List.filterMap_cons, List.getElem?_eq_getElem hi]
    simp only [List.map_cons, nameAt, List.getElem?_eq_getElem hi, Option.map_some,
      Option.getD_some]
    rw [ih fun j hj => hOrder j (List.mem_cons_of_mem _ hj)]

section Along

variable {next : Nat → List Nat} (hg : g.WellFormed) (hNext : ∀ i j, j ∈ next i ↔ (j, i) ∈ g.edges)

include hg hNext

/-- Nodes lead to nodes. -/
theorem WellFormed.next_lt : ∀ i < g.size, ∀ j ∈ next i, j < g.size :=
  fun i _ j hj => (hg.bounded _ ((hNext i j).mp hj)).1

theorem WellFormed.dependsOn_nameAt {i j : Nat} (h : LeadsTo next i j) :
    g.DependsOn (g.nameAt i) (g.nameAt j) := by
  have hEdge := (hNext i j).mp h
  obtain ⟨hj, hi⟩ := hg.bounded _ hEdge
  exact ⟨i, j, getElem?_names hi, getElem?_names hj, hEdge⟩

/-- What the name of a node depends on is the name of a node it leads to. -/
theorem WellFormed.exists_leadsTo {i : Nat} (hi : i < g.size) {b : String}
    (h : g.DependsOn (g.nameAt i) b) : ∃ j, LeadsTo next i j ∧ g.nameAt j = b := by
  obtain ⟨i', j, hName, hB, hEdge⟩ := h
  obtain rfl : i' = i := hg.nameAt_inj (hg.bounded _ hEdge).2 hi (nameAt_eq hName)
  exact ⟨j, (hNext _ _).mpr hEdge, nameAt_eq hB⟩

/-- **An order holds the closure of its root, or a cycle lies in it.** -/
theorem orderAlong_spec (root : String) :
    match g.orderAlong next root with
    | .ok nodes => nodes ⊆ g.nodes ∧ (nodes.map Node.name).Nodup ∧
        Founded g.DependsOn (nodes.map Node.name) ∧
        ∀ n, n ∈ nodes.map Node.name ↔ ReflTransGen g.DependsOn root n
    | .error fault => (fault = .notFound root ∧ g.contains root = false) ∨
        ∃ cycle, fault = .cycle cycle ∧ IsCycle g.DependsOn cycle ∧
          ∀ n ∈ cycle, ReflTransGen g.DependsOn root n := by
  rw [orderAlong]
  cases hRoot : g.index? root with
  | none =>
    exact .inl ⟨rfl, contains_eq_false_iff.mpr (index?_eq_none_iff.mp hRoot)⟩
  | some start =>
    have hStart := (index?_eq_some_iff hg.distinct).mp hRoot
    have hStartLt := lt_size_of_name hStart
    have hBound := hg.next_lt hNext
    have hSpec := searchFrom_spec hStartLt hBound
    -- what the search says of numbers, the nodes at these numbers say of names
    have hLift : ∀ i, ReflTransGen (LeadsTo next) start i →
        ReflTransGen g.DependsOn root (g.nameAt i) := by
      intro i hi
      rw [← nameAt_eq hStart]
      exact hi.lift g.nameAt fun a b => hg.dependsOn_nameAt hNext
    have hReachLt : ∀ i, ReflTransGen (LeadsTo next) start i → i < g.size :=
      fun i hi => lt_of_reflTransGen hBound hStartLt hi
    simp only [orderFrom]
    cases hSearch : searchFrom g.size next start with
    | error cycle =>
      rw [hSearch] at hSpec
      obtain ⟨hCycle, hLed⟩ := hSpec
      refine .inr ⟨_, rfl, hCycle.map (fun a _ b _ => hg.dependsOn_nameAt hNext) ?_, ?_⟩
      · -- distinct nodes of the cycle have distinct names
        intro i hi j hj
        exact hg.nameAt_inj (hReachLt i (hLed i hi)) (hReachLt j (hLed j hj))
      · intro n hn
        obtain ⟨i, hi, rfl⟩ := List.mem_map.mp hn
        exact hLift i (hLed i hi)
    | ok order =>
      rw [hSearch] at hSpec
      obtain ⟨hNodup, hFounded, hMem⟩ := hSpec
      have hLt : ∀ i ∈ order, i < g.size := fun i hi => hReachLt i ((hMem i).mp hi)
      have hFoundedNames : Founded g.DependsOn (order.map g.nameAt) :=
        hFounded.map fun i hi b hb => hg.exists_leadsTo hNext (hLt i hi) hb
      simp only [map_name_filterMap order hLt]
      refine ⟨?_, ?_, hFoundedNames, fun n => ⟨fun hn => ?_, fun hn => ?_⟩⟩
      · intro node hNode
        obtain ⟨i, -, hi⟩ := List.mem_filterMap.mp hNode
        exact List.mem_of_getElem? hi
      · refine (List.nodup_map_iff_inj_on hNodup).mpr fun i hi j hj => ?_
        exact hg.nameAt_inj (hLt i hi) (hLt j hj)
      · obtain ⟨i, hi, rfl⟩ := List.mem_map.mp hn
        exact hLift i ((hMem i).mp hi)
      · refine hFoundedNames.closed ?_ hn
        exact nameAt_eq hStart ▸ List.mem_map_of_mem ((hMem start).mpr .refl)

end Along

/-- The order by a key, for whatever key. -/
theorem orderBy_spec {κ : Type} [Ord κ] (hg : g.WellFormed) (key : Node α → κ) (root : String) :
    match g.orderBy root key with
    | .ok nodes => nodes ⊆ g.nodes ∧ (nodes.map Node.name).Nodup ∧
        Founded g.DependsOn (nodes.map Node.name) ∧
        ∀ n, n ∈ nodes.map Node.name ↔ ReflTransGen g.DependsOn root n
    | .error fault => (fault = .notFound root ∧ g.contains root = false) ∨
        ∃ cycle, fault = .cycle cycle ∧ IsCycle g.DependsOn cycle ∧
          ∀ n ∈ cycle, ReflTransGen g.DependsOn root n :=
  orderAlong_spec hg (fun _ _ => mem_siblings) root

-- ---------------------------------------------------------------------------
-- Cycles
-- ---------------------------------------------------------------------------

/-- **A cycle is found if there is one.** Where none is found, no name depends
on itself, over any number of steps. -/
theorem findCycle?_spec (hg : g.WellFormed) :
    match g.findCycle? with
    | none => ∀ a, ¬ TransGen g.DependsOn a a
    | some cycle => IsCycle g.DependsOn cycle := by
  have hNext : ∀ i j, j ∈ g.siblings id i ↔ (j, i) ∈ g.edges := fun _ _ => mem_siblings
  have hSpec := searchCycle?_spec (hg.next_lt hNext)
  rw [findCycle?]
  cases hSearch : searchCycle? g.size (g.siblings id) with
  | some cycle =>
    rw [hSearch] at hSpec
    obtain ⟨hCycle, hLt⟩ := hSpec
    refine hCycle.map (fun a _ b _ => hg.dependsOn_nameAt hNext) fun i hi j hj => ?_
    exact hg.nameAt_inj (hLt i hi) (hLt j hj)
  | none =>
    rw [hSearch] at hSpec
    obtain ⟨order, hNodup, hFounded, hMem⟩ := hSpec
    have hFoundedNames : Founded g.DependsOn (order.map g.nameAt) :=
      hFounded.map fun i hi b hb => hg.exists_leadsTo hNext ((hMem i).mp hi) hb
    have hNodupNames : (order.map g.nameAt).Nodup := by
      refine (List.nodup_map_iff_inj_on hNodup).mpr fun i hi j hj => ?_
      exact hg.nameAt_inj ((hMem i).mp hi) ((hMem j).mp hj)
    intro a hCircle
    -- what depends on something is the name of a node, and so in the order
    obtain ⟨b, ⟨i, _, hName, -, -⟩, -⟩ := TransGen.head'_iff.mp hCircle
    have hi := lt_size_of_name hName
    have hIn : a ∈ order.map g.nameAt := by
      rw [← nameAt_eq hName]
      exact List.mem_map_of_mem ((hMem i).mpr hi)
    exact hFoundedNames.irrefl hNodupNames hIn hCircle

-- ---------------------------------------------------------------------------
-- Linking
-- ---------------------------------------------------------------------------

theorem mem_foldl_insertEdge {new old : List (Nat × Nat)} {e : Nat × Nat} :
    e ∈ new.foldl insertEdge old ↔ e ∈ old ∨ e ∈ new := by
  induction new generalizing old with
  | nil => simp
  | cons first rest ih =>
    have hInsert : e ∈ insertEdge old first ↔ e ∈ old ∨ e = first := by
      unfold insertEdge
      split
      case isTrue hMem => exact ⟨.inl, fun h => h.elim id (· ▸ hMem)⟩
      case isFalse => simp
    rw [List.foldl_cons, ih, hInsert, List.mem_cons, or_assoc]

variable [Dependent α]

theorem mem_declarations {i : Nat} {task dep : String} :
    (i, task, dep) ∈ g.declarations ↔
      ∃ node, g.nodes[i]? = some node ∧ node.name = task ∧ dep ∈ dependencies node.data := by
  simp only [declarations, List.mem_flatMap, List.mem_map, Prod.exists,
    List.mem_zipIdx_iff_getElem?]
  constructor
  · rintro ⟨node, i, hNode, dep, hDep, hEq⟩
    cases hEq
    exact ⟨node, hNode, rfl, hDep⟩
  · rintro ⟨node, hNode, rfl, hDep⟩
    exact ⟨node, i, hNode, dep, hDep, rfl⟩

theorem mem_declaredEdges {i j : Nat} :
    (j, i) ∈ g.declaredEdges ↔
      ∃ node, g.nodes[i]? = some node ∧ ∃ dep ∈ dependencies node.data, g.index? dep = some j := by
  simp only [declaredEdges, List.mem_filterMap, Prod.exists, Option.map_eq_some_iff]
  constructor
  · rintro ⟨i, task, dep, hDecl, j, hIndex, hEq⟩
    cases hEq
    obtain ⟨node, hNode, -, hDep⟩ := mem_declarations.mp hDecl
    exact ⟨node, hNode, dep, hDep, hIndex⟩
  · rintro ⟨node, hNode, dep, hDep, hIndex⟩
    exact ⟨i, node.name, dep, mem_declarations.mpr ⟨node, hNode, rfl, hDep⟩, j, hIndex, rfl⟩

theorem mem_unresolved {task dep : String} :
    (task, dep) ∈ g.unresolved ↔
      (∃ node ∈ g.nodes, node.name = task ∧ dep ∈ dependencies node.data) ∧
        dep ∉ g.nodes.map Node.name := by
  simp only [unresolved, List.mem_filterMap, Prod.exists, Option.ite_none_right_eq_some,
    Option.isNone_iff_eq_none, index?_eq_none_iff]
  constructor
  · rintro ⟨i, task, dep, hDecl, hNot, hEq⟩
    cases hEq
    obtain ⟨node, hNode, hName, hDep⟩ := mem_declarations.mp hDecl
    exact ⟨⟨node, List.mem_of_getElem? hNode, hName, hDep⟩, hNot⟩
  · rintro ⟨⟨node, hNode, hName, hDep⟩, hNot⟩
    obtain ⟨i, hi⟩ := List.mem_iff_getElem?.mp hNode
    exact ⟨i, task, dep, mem_declarations.mpr ⟨node, hi, hName, hDep⟩, hNot, rfl⟩

/-- **Linking adds all declared edges or none.** -/
theorem link_spec (g : Graph α) :
    match g.link with
    | .ok linked => g.unresolved = [] ∧ linked.nodes = g.nodes ∧
        ∀ e, e ∈ linked.edges ↔ e ∈ g.edges ∨ e ∈ g.declaredEdges
    | .error fault => fault = .missing g.unresolved ∧ g.unresolved ≠ [] := by
  rw [link]
  by_cases hEmpty : g.unresolved.isEmpty = true
  · rw [if_pos hEmpty]
    exact ⟨List.isEmpty_iff.mp hEmpty, rfl, fun e => mem_foldl_insertEdge⟩
  · rw [if_neg hEmpty]
    exact ⟨rfl, fun h => hEmpty (List.isEmpty_iff.mpr h)⟩

theorem linked_of_link {linked : Graph α} (hLink : g.link = .ok linked) :
    g.unresolved = [] ∧ linked.nodes = g.nodes ∧
      ∀ e, e ∈ linked.edges ↔ e ∈ g.edges ∨ e ∈ g.declaredEdges := by
  have hSpec := g.link_spec
  rwa [hLink] at hSpec

theorem refused_of_link {fault : GraphFault} (hLink : g.link = .error fault) :
    fault = .missing g.unresolved ∧ g.unresolved ≠ [] := by
  have hSpec := g.link_spec
  rwa [hLink] at hSpec

/-- A graph can be linked exactly if all that is declared can be resolved. -/
theorem exists_link_iff : (∃ linked, g.link = .ok linked) ↔ g.unresolved = [] := by
  cases hLink : g.link with
  | ok linked => simp [(linked_of_link hLink).1]
  | error fault => simp [(refused_of_link hLink).2]

/-- What linking cannot resolve is what dangles, in the same order. -/
theorem unresolved_eq_dangling (g : Graph α) : g.unresolved = g.dangling := by
  have hNode : ∀ entry : Node α × Nat,
      ((dependencies entry.1.data).map fun dep => (entry.2, entry.1.name, dep)).filterMap
        (fun declaration => if (g.index? declaration.2.2).isNone then
          some (declaration.2.1, declaration.2.2) else none) =
      ((dependencies entry.1.data).filter fun dep => !g.contains dep).map
        fun dep => (entry.1.name, dep) := by
    intro entry
    rw [List.filterMap_map, ← List.filterMap_eq_map, List.filterMap_filter]
    refine List.filterMap_congr fun dep _ => ?_
    -- a name has a number exactly if it has a node
    have hNone : (g.index? dep).isNone = !g.contains dep := by
      rw [Bool.eq_iff_iff, Option.isNone_iff_eq_none, index?_eq_none_iff, Bool.not_eq_true',
        contains_eq_false_iff]
    simp only [Function.comp_apply, hNone]
  have hNodes : g.nodes.zipIdx.map Prod.fst = g.nodes := List.zipIdx_map_fst 0 g.nodes
  rw [unresolved, declarations, List.filterMap_flatMap, dangling]
  conv_rhs => rw [← hNodes, List.flatMap_map]
  simp only [hNode]

/-- Nothing dangles in a graph that has been linked. -/
theorem dangling_of_link {linked : Graph α} (hLink : g.link = .ok linked) :
    linked.dangling = [] := by
  obtain ⟨hResolved, hNodes, -⟩ := linked_of_link hLink
  rw [← hResolved, unresolved_eq_dangling, dangling, dangling, hNodes]
  simp only [contains, hNodes]

/-- Where nothing dangles, only a cycle can be wrong. -/
theorem check_of_dangling (hDangling : g.dangling = []) :
    g.check = match g.findCycle? with
      | none => .ok ()
      | some cycle => .error (.cycle cycle) := by
  simp only [check, faults, hDangling, List.isEmpty_nil, if_true, List.nil_append]
  cases g.findCycle? <;> rfl

section Linked

variable {linked : Graph α} (hDistinct : (g.nodes.map Node.name).Nodup) (hEdges : g.edges = [])
  (hLink : g.link = .ok linked)

include hDistinct hEdges hLink

/-- Linking a graph without edges makes the declared dependencies the edges. -/
theorem dependsOn_of_link {a b : String} :
    linked.DependsOn a b ↔ ∃ node ∈ g.nodes, node.name = a ∧ b ∈ dependencies node.data := by
  obtain ⟨hResolved, hNodes, hMem⟩ := linked_of_link hLink
  simp only [DependsOn, hNodes, hMem, hEdges, List.not_mem_nil, false_or, mem_declaredEdges]
  constructor
  · rintro ⟨i, j, hA, hB, node, hNode, dep, hDep, hIndex⟩
    rw [index?_eq_some_iff hDistinct, hB] at hIndex
    obtain rfl := Option.some.inj hIndex
    rw [List.getElem?_map, hNode] at hA
    exact ⟨node, List.mem_of_getElem? hNode, Option.some.inj hA, hDep⟩
  · rintro ⟨node, hNode, rfl, hDep⟩
    -- nothing is left unresolved, so what is declared names a node
    have hKnown : b ∈ g.nodes.map Node.name := by
      by_contra hNot
      have hMissing := mem_unresolved.mpr ⟨⟨node, hNode, rfl, hDep⟩, hNot⟩
      rw [hResolved] at hMissing
      exact List.not_mem_nil hMissing
    obtain ⟨i, hi⟩ := List.mem_iff_getElem?.mp hNode
    obtain ⟨j, hj⟩ := List.mem_iff_getElem?.mp hKnown
    refine ⟨i, j, ?_, hj, node, hi, b, hDep, (index?_eq_some_iff hDistinct).mpr hj⟩
    rw [List.getElem?_map, hi]
    rfl

theorem wellFormed_of_link : linked.WellFormed := by
  obtain ⟨-, hNodes, hMem⟩ := linked_of_link hLink
  constructor
  · rw [hNodes]
    exact hDistinct
  · rintro ⟨j, i⟩ hEdge
    rw [hMem, hEdges, or_iff_right List.not_mem_nil, mem_declaredEdges] at hEdge
    obtain ⟨node, hNode, dep, -, hIndex⟩ := hEdge
    have hj := (index?_eq_some_iff hDistinct).mp hIndex
    rw [size, hNodes]
    exact ⟨by simpa using (List.getElem?_eq_some_iff.mp hj).1,
      (List.getElem?_eq_some_iff.mp hNode).1⟩

end Linked

end TaskMill.Graph
