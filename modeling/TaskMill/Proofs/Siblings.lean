import Mathlib
import TaskMill.Proofs.Check
import TaskMill.Proofs.Renumbering
/-!
# TaskMill — the order in which siblings are visited

What a node depends on is kept as edges, in the order in which these were added.
A search does not see that order: it visits **siblings** by a key, and each once
(`pairwise_siblings`). A graph is **arranged** by an order of names if the
siblings of each node stand in it. Two graphs that are arranged by the same order
and have the same edges beneath a root are ordered alike, whatever the numbers of
their nodes (`Arranged.order_eq`).

Both graphs that are made from a registry, that of a closure and that of all
tasks, are arranged by the order of declaration (`Precedes`).

## Results

* `Graph.Arranged.order_eq` — graphs that agree beneath a root are ordered alike.
* `Registry.arranged_closure`, `Registry.arranged_graph` — siblings are visited in
  the order of their declaration.
-/

namespace TaskMill

open Relation (ReflTransGen)

-- ---------------------------------------------------------------------------
-- Siblings
-- ---------------------------------------------------------------------------

namespace Graph

variable {α β κ : Type} {g : Graph α} {g' : Graph β}

instance [Ord κ] [Std.TransOrd κ] (key : Nat → κ) : Std.TransCmp (keyThenIndex key) :=
  inferInstanceAs (Std.TransCmp (compareLex (compareOn key) (compare : Nat → Nat → Ordering)))

theorem foldl_insertEdge_nodup {new old : List (Nat × Nat)} (hOld : old.Nodup) :
    (new.foldl insertEdge old).Nodup := by
  induction new generalizing old with
  | nil => exact hOld
  | cons edge rest ih =>
    refine ih ?_
    unfold insertEdge
    split
    case isTrue => exact hOld
    case isFalse hNew =>
      refine List.nodup_append.mpr ⟨hOld, by simp, fun a ha b hb hab => hNew ?_⟩
      rwa [← List.mem_singleton.mp hb, ← hab]

theorem edges_nodup_of_link [Dependent α] {linked : Graph α} (hEdges : g.edges.Nodup)
    (hLink : g.link = .ok linked) : linked.edges.Nodup := by
  unfold link at hLink
  split at hLink
  · obtain rfl := Except.ok.inj hLink
    exact foldl_insertEdge_nodup hEdges
  · cases hLink

/-- Where siblings are in order, so are their keys. -/
theorem isLE_of_keyThenIndex [Ord κ] {key : Nat → κ} {i j : Nat}
    (h : (keyThenIndex key i j).isLE = true) : (compare (key i) (key j)).isLE = true := by
  rcases Ordering.isLE_then_iff_or.mp h with hLt | ⟨hEq, -⟩
  · rw [hLt]
    rfl
  · rw [hEq]
    rfl

/-- Siblings are sorted and stand once each. -/
theorem pairwise_siblings [Ord κ] [Std.TransOrd κ] (hEdges : g.edges.Nodup) (key : Nat → κ)
    (i : Nat) :
    (g.siblings key i).Pairwise fun a b => a ≠ b ∧ (keyThenIndex key a b).isLE = true := by
  have hTotal : ∀ a b, ((keyThenIndex key a b).isLE || (keyThenIndex key b a).isLE) = true := by
    intro a b
    have hSwap : keyThenIndex key b a = (keyThenIndex key a b).swap := Std.OrientedCmp.eq_swap
    rw [hSwap]
    cases keyThenIndex key a b <;> rfl
  have hSorted : (g.siblings key i).Pairwise fun a b => (keyThenIndex key a b).isLE = true :=
    List.pairwise_mergeSort (fun _ _ _ => Std.TransCmp.isLE_trans) hTotal (g.incoming i)
  have hOnce : (g.siblings key i).Nodup := by
    refine (List.mergeSort_perm _ _).nodup_iff.mpr (hEdges.filterMap ?_)
    -- an edge into the node is known by where it comes from
    rintro ⟨a, x⟩ ⟨b, y⟩ c hc hc'
    simp at hc hc'
    simp [hc, hc']
  exact hOnce.and hSorted

/-- `next` lists what a node depends on, and in the order of `before`. -/
structure Arranged (before : String → String → Prop) (g : Graph α) (next : Nat → List Nat) :
    Prop where
  edges  : ∀ i j, j ∈ next i ↔ (j, i) ∈ g.edges
  sorted : ∀ i < g.size, ((next i).map g.nameAt).Pairwise before

/-- Siblings are arranged by whatever their keys follow. -/
theorem arranged_siblings [Ord κ] [Std.TransOrd κ] (hg : g.WellFormed) (hEdges : g.edges.Nodup)
    {key : Nat → κ} {before : String → String → Prop}
    (hKey : ∀ i < g.size, ∀ j < g.size, i ≠ j → (keyThenIndex key i j).isLE = true →
      before (g.nameAt i) (g.nameAt j)) :
    Arranged before g (g.siblings key) where
  edges i j := mem_siblings
  sorted i _ := by
    rw [List.pairwise_map]
    refine (pairwise_siblings hEdges key i).imp_of_mem fun ha hb hab => ?_
    have hLt : ∀ {a}, a ∈ g.siblings key i → a < g.size :=
      fun ha => (hg.bounded _ (mem_siblings.mp ha)).1
    exact hKey _ (hLt ha) _ (hLt hb) hab.1 hab.2

theorem Arranged.imp {before before' : String → String → Prop} {next : Nat → List Nat}
    (h : Arranged before g next) (hg : g.WellFormed)
    (hImp : ∀ a ∈ g.nodes.map Node.name, ∀ b ∈ g.nodes.map Node.name, before a b → before' a b) :
    Arranged before' g next where
  edges := h.edges
  sorted i hi := by
    have hName : ∀ a ∈ (next i).map g.nameAt, a ∈ g.nodes.map Node.name := by
      intro a ha
      obtain ⟨j, hj, rfl⟩ := List.mem_map.mp ha
      exact List.mem_of_getElem? (getElem?_names (hg.bounded _ ((h.edges i j).mp hj)).1)
    exact (h.sorted i hi).imp_of_mem fun ha hb => hImp _ (hName _ ha) _ (hName _ hb)

/-- The names that are listed for a node are those that its name depends on. -/
theorem Arranged.mem_names {before : String → String → Prop} {next : Nat → List Nat}
    (h : Arranged before g next) (hg : g.WellFormed) {i : Nat} (hi : i < g.size) {b : String} :
    b ∈ (next i).map g.nameAt ↔ g.DependsOn (g.nameAt i) b := by
  rw [List.mem_map]
  constructor
  · rintro ⟨j, hj, rfl⟩
    exact hg.dependsOn_nameAt h.edges hj
  · exact hg.exists_leadsTo h.edges hi

/-- **Graphs that agree beneath a root are ordered alike**, if both list
dependencies in one and the same order. -/
theorem Arranged.order_eq {before : String → String → Prop} [Std.Antisymm before]
    [Std.Irrefl before] {next next' : Nat → List Nat} (h : Arranged before g next)
    (h' : Arranged before g' next') (hg : g.WellFormed) (hg' : g'.WellFormed) {root : String}
    (hRoot : g.contains root = true) (hRoot' : g'.contains root = true)
    (hDepends : ∀ a, ReflTransGen g.DependsOn root a → ∀ b, g.DependsOn a b ↔ g'.DependsOn a b) :
    (g'.orderAlong next' root).map (·.map Node.name) =
      (g.orderAlong next root).map (·.map Node.name) := by
  have hIndex : ∀ {γ : Type} {f : Graph γ}, f.contains root = true →
      ∃ i, f.index? root = some i := by
    intro γ f hIn
    rw [← Option.ne_none_iff_exists', ne_eq, index?_eq_none_iff, not_not]
    exact contains_iff.mp hIn
  obtain ⟨start, hStart⟩ := hIndex hRoot
  obtain ⟨start', hStart'⟩ := hIndex hRoot'
  refine orderAlong_congr hg hg' h.edges h'.edges hStart hStart' fun i hi j hj hReach hName => ?_
  refine (h'.sorted j hj).eq_of_mem_iff (h.sorted i hi) fun b => ?_
  rw [h'.mem_names hg' hj, h.mem_names hg hi, hName, hDepends _ hReach]

end Graph

-- ---------------------------------------------------------------------------
-- The order of declaration
-- ---------------------------------------------------------------------------

namespace Registry

variable {r : Registry} {name : String}

/-- `a` is declared before `b`. -/
def Precedes (r : Registry) (a b : String) : Prop :=
  ∃ i j, r.position? a = some i ∧ r.position? b = some j ∧ i < j

theorem Precedes.not_symm {a b : String} (h : r.Precedes a b) : ¬ r.Precedes b a := by
  rintro ⟨i, j, hi, hj, hij⟩
  obtain ⟨k, l, hk, hl, hkl⟩ := h
  obtain rfl := Option.some.inj (hi.symm.trans hl)
  obtain rfl := Option.some.inj (hj.symm.trans hk)
  omega

instance : Std.Antisymm r.Precedes := ⟨fun _ _ h h' => absurd h' h.not_symm⟩

instance : Std.Irrefl r.Precedes := ⟨fun _ h => h.not_symm h⟩

/-- Of two registered names, one is declared before the other. -/
theorem precedes_or_precedes {a b : String} (ha : r.contains a = true) (hb : r.contains b = true)
    (hNe : a ≠ b) : r.Precedes a b ∨ r.Precedes b a := by
  obtain ⟨i, hi⟩ := List.mem_iff_getElem?.mp (contains_iff.mp ha)
  obtain ⟨j, hj⟩ := List.mem_iff_getElem?.mp (contains_iff.mp hb)
  have hij : i ≠ j := by
    rintro rfl
    exact hNe (Option.some.inj (hi.symm.trans hj))
  rcases Nat.lt_or_gt_of_ne hij with hLt | hGt
  · exact .inl ⟨i, j, position?_eq_some_iff.mpr hi, position?_eq_some_iff.mpr hj, hLt⟩
  · exact .inr ⟨j, i, position?_eq_some_iff.mpr hj, position?_eq_some_iff.mpr hi, hGt⟩

/-- A name is declared before another exactly if they stand so in the list of all
names. -/
theorem precedes_iff_sublist {a b : String} :
    r.Precedes a b ↔ [a, b].Sublist (r.tasks.map Task.name) := by
  constructor
  · rintro ⟨i, j, hi, hj, hij⟩
    rw [position?_eq_some_iff] at hi hj
    have hFront : a ∈ (r.tasks.map Task.name).take j :=
      List.mem_of_getElem? (i := i) (by rw [List.getElem?_take_of_lt hij, hi])
    have hBack : b ∈ (r.tasks.map Task.name).drop j :=
      List.mem_of_getElem? (i := 0) (by rw [List.getElem?_drop, Nat.add_zero, hj])
    rw [← List.take_append_drop j (r.tasks.map Task.name)]
    exact (List.singleton_sublist.mpr hFront).append (List.singleton_sublist.mpr hBack)
  · have hPairwise : (r.tasks.map Task.name).Pairwise r.Precedes := by
      rw [List.pairwise_iff_getElem]
      intro i j hi hj hij
      exact ⟨i, j, position?_eq_some_iff.mpr (List.getElem?_eq_getElem hi),
        position?_eq_some_iff.mpr (List.getElem?_eq_getElem hj), hij⟩
    exact fun hSub => List.pairwise_iff_forall_sublist.mp hPairwise hSub

theorem Precedes.contains {a b : String} (h : r.Precedes a b) :
    r.contains a = true ∧ r.contains b = true := by
  have hSub := precedes_iff_sublist.mp h
  exact ⟨contains_iff.mpr (hSub.subset (by simp)), contains_iff.mpr (hSub.subset (by simp))⟩

section Linked

variable {linked : Graph Task}

/-- In the graph of a closure, dependencies are visited in the order of their
declaration. -/
theorem arranged_closure (hLink : (r.closureGraph name).link = .ok linked) :
    Graph.Arranged r.Precedes linked (linked.siblings fun i =>
      linked.nodes[i]?.map fun node => (r.position? node.name).getD r.size) := by
  have hg := linked_wellFormed hLink
  refine Graph.arranged_siblings hg (Graph.edges_nodup_of_link (closureGraph_edges ▸ .nil) hLink) ?_
  intro i hi j hj hNe hLE
  have hPosition : ∀ k < linked.size, ∃ p, r.position? (linked.nameAt k) = some p ∧
      (linked.nodes[k]?.map fun node => (r.position? node.name).getD r.size) = some p := by
    intro k hk
    have hName := Graph.getElem?_names hk
    have hMem : linked.nameAt k ∈ (r.closureGraph name).nodes.map Node.name := by
      rw [← linked_nodes_eq hLink]
      exact List.mem_of_getElem? hName
    obtain ⟨p, hp⟩ := List.mem_iff_getElem?.mp (contains_iff.mp (mem_names_closureGraph.mp hMem).2)
    have hFound := position?_eq_some_iff.mpr hp
    have hNamed : (linked.nodes[k]?.map fun node => (r.position? node.name).getD r.size) =
        (linked.nodes.map Node.name)[k]?.map fun n => (r.position? n).getD r.size := by
      rw [List.getElem?_map, Option.map_map]
      rfl
    refine ⟨p, hFound, ?_⟩
    rw [hNamed, hName, Option.map_some, hFound, Option.getD_some]
  obtain ⟨p, hp, hKey⟩ := hPosition i hi
  obtain ⟨q, hq, hKey'⟩ := hPosition j hj
  have hCompare := Graph.isLE_of_keyThenIndex hLE
  rw [hKey, hKey'] at hCompare
  have hLe : p ≤ q := Nat.isLE_compare.mp hCompare
  -- they differ, as the names of the two nodes do
  have hDiffer : p ≠ q := by
    rintro rfl
    rw [position?_eq_some_iff] at hp hq
    exact hNe (hg.nameAt_inj hi hj (Option.some.inj (hp.symm.trans hq)))
  exact ⟨p, q, hp, hq, by omega⟩

/-- In the graph of all tasks they are too. -/
theorem arranged_graph (hLink : r.graph.link = .ok linked) :
    Graph.Arranged r.Precedes linked (linked.siblings id) := by
  have hEdges : r.graph.edges = [] := by rw [graph_eq]
  have hg := Graph.wellFormed_of_link (names_graph ▸ r.distinct) hEdges hLink
  have hNames : linked.nodes.map Node.name = r.tasks.map Task.name := by
    rw [(Graph.linked_of_link hLink).2.1, names_graph]
  refine Graph.arranged_siblings hg (Graph.edges_nodup_of_link (hEdges ▸ .nil) hLink) ?_
  intro i hi j hj hNe hLE
  have hLe : i ≤ j := Nat.isLE_compare.mp (Graph.isLE_of_keyThenIndex hLE)
  -- the number of a node is the position of its task
  refine ⟨i, j, ?_, ?_, by omega⟩
  · rw [position?_eq_some_iff, ← hNames, Graph.getElem?_names hi]
  · rw [position?_eq_some_iff, ← hNames, Graph.getElem?_names hj]

end Linked

end Registry

end TaskMill
