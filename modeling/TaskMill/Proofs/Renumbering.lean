import TaskMill.Proofs.Ordering
/-!
# TaskMill — searches under other numbers

One set of nodes can be numbered in two ways. If `f` takes each number of the
first numbering to the one that the same node has in the second, and what a node
leads to is listed in the same order under both, then the two searches **mirror**
each other: at every step their paths and orders are the same up to `f`, and the
marks of a node are equal (`Mirrors`). So they come to the same order, or to the
same cycle.

For graphs the numbers are those of the nodes, and what is compared are names.
Two graphs give the same order of names, or the same cycle of names, if they list
the same names, in the same order, for each node beneath the root.

## Results

* `visit_mirrors` — mirroring searches mirror each other after every visit.
* `searchFrom_map` — what a search from a root comes to under other numbers.
* `Graph.orderAlong_congr` — graphs that list the same names give the same order.
-/

namespace TaskMill

open Relation (ReflTransGen)

namespace Search

-- ---------------------------------------------------------------------------
-- Two numberings
-- ---------------------------------------------------------------------------

/-- On the nodes of `P`, which are not left by following `next`, the numbering
`f` keeps nodes apart and takes what `next` lists to what `next'` lists. -/
structure Renumbers (P : Nat → Prop) (f : Nat → Nat) (next next' : Nat → List Nat) : Prop where
  closed  : ∀ i, P i → ∀ j ∈ next i, P j
  apart   : ∀ i j, P i → P j → f i = f j → i = j
  next_eq : ∀ i, P i → next' (f i) = (next i).map f

/-- Two searches of the same nodes stand at the same step. -/
structure Mirrors (P : Nat → Prop) (f : Nat → Nat) (s s' : Search) : Prop where
  marks_eq : ∀ i, P i → s'.marks[f i]? = s.marks[i]?
  path_mem : ∀ i ∈ s.path, P i
  path_eq  : s'.path = s.path.map f
  order_eq : s'.order = s.order.map f

/-- Two visits came to the same: to searches at the same step, or to the same
cycle. -/
def MirrorsVisit (P : Nat → Prop) (f : Nat → Nat) {s s' : Search} :
    Except (List Nat) s.After → Except (List Nat) s'.After → Prop
  | .ok t, .ok t' => Mirrors P f t.val t'.val
  | .error cycle, .error cycle' => cycle' = cycle.map f
  | _, _ => False

variable {P : Nat → Prop} {f : Nat → Nat} {next next' : Nat → List Nat} {s s' t t' : Search}
  {i : Nat}

/-- A mark that is set in both searches is equal in both. -/
theorem Renumbers.set_eq (hf : Renumbers P f next next') {marks marks' : List Mark} (hi : P i)
    (hMarks : ∀ j, P j → marks'[f j]? = marks[j]?) (mark : Mark) :
    ∀ j, P j → (marks'.set (f i) mark)[f j]? = (marks.set i mark)[j]? := by
  intro j hj
  have hSame : f i = f j ↔ i = j := ⟨hf.apart i j hi hj, congrArg f⟩
  rw [List.getElem?_set', List.getElem?_set', hMarks j hj]
  simp only [hSame]

namespace Mirrors

theorem enter (hf : Renumbers P f next next') (h : Mirrors P f s s') (hi : P i) :
    Mirrors P f (s.enter i) (s'.enter (f i)) where
  marks_eq := hf.set_eq hi h.marks_eq .visiting
  path_mem j hj := by
    rcases List.mem_append.mp hj with hOld | hNew
    · exact h.path_mem j hOld
    · obtain rfl : j = i := by simpa using hNew
      exact hi
  path_eq := by simp [Search.enter, h.path_eq]
  order_eq := h.order_eq

theorem leave (hf : Renumbers P f next next') (h : Mirrors P f t t') (hi : P i) :
    Mirrors P f (t.leave i) (t'.leave (f i)) where
  marks_eq := hf.set_eq hi h.marks_eq .done
  path_mem j hj := h.path_mem j (t.path.dropLast_subset hj)
  path_eq := by simp [Search.leave, h.path_eq]
  order_eq := by simp [Search.leave, h.order_eq]

/-- Reaching a node of the path again closes the same cycle. -/
theorem closedAt_eq (hf : Renumbers P f next next') (h : Mirrors P f s s') (hi : P i) :
    s'.closedAt (f i) = (s.closedAt i).map f := by
  -- a node of the path is skipped in one search exactly if it is in the other
  have hSkip : ∀ path : List Nat, (∀ j ∈ path, P j) →
      (path.map f).dropWhile (· ≠ f i) = (path.dropWhile (· ≠ i)).map f := by
    intro path
    induction path with
    | nil => simp
    | cons j rest ih =>
      intro hPath
      obtain ⟨hj, hRest⟩ := List.forall_mem_cons.mp hPath
      by_cases hij : j = i
      · simp [hij]
      · have hApart : f j ≠ f i := fun hEq => hij (hf.apart j i hj hi hEq)
        simpa [List.dropWhile_cons, hij, hApart] using ih hRest
  rw [closedAt, closedAt, h.path_eq, hSkip s.path h.path_mem, List.map_append]
  rfl

end Mirrors

-- ---------------------------------------------------------------------------
-- Two visits
-- ---------------------------------------------------------------------------

namespace MirrorsVisit

/-- A fresh node is visited alike if what it leads to is. -/
theorem fresh (hf : Renumbers P f next next') (hi : P i) (hMirrors : Mirrors P f s s')
    (hFresh : s.marks[i]? = some .unvisited)
    (hBeneath : MirrorsVisit P f (visitAll next (next i) (s.enter i))
      (visitAll next' ((next i).map f) (s'.enter (f i)))) :
    MirrorsVisit P f (visit next i s) (visit next' (f i) s') := by
  rw [visit_of_unvisited hFresh, visit_of_unvisited ((hMirrors.marks_eq i hi).trans hFresh),
    hf.next_eq i hi]
  cases hAll : visitAll next (next i) (s.enter i) with
  | error cycle =>
    cases hAll' : visitAll next' ((next i).map f) (s'.enter (f i)) with
    | error cycle' =>
      rw [hAll, hAll'] at hBeneath
      exact hBeneath
    | ok t' =>
      rw [hAll, hAll'] at hBeneath
      exact hBeneath.elim
  | ok t =>
    cases hAll' : visitAll next' ((next i).map f) (s'.enter (f i)) with
    | error cycle' =>
      rw [hAll, hAll'] at hBeneath
      exact hBeneath.elim
    | ok t' =>
      rw [hAll, hAll'] at hBeneath
      exact Mirrors.leave hf hBeneath hi

/-- Nodes are visited alike if the first one is and then the others are. -/
theorem cons {nodes : List Nat} (hFirst : MirrorsVisit P f (visit next i s) (visit next' (f i) s'))
    (hRest : ∀ (t : s.After) (t' : s'.After), visit next i s = .ok t → Mirrors P f t.val t'.val →
      MirrorsVisit P f (visitAll next nodes t.val) (visitAll next' (nodes.map f) t'.val)) :
    MirrorsVisit P f (visitAll next (i :: nodes) s) (visitAll next' ((i :: nodes).map f) s') := by
  rw [List.map_cons, visitAll, visitAll]
  cases hVisit : visit next i s with
  | error cycle =>
    cases hVisit' : visit next' (f i) s' with
    | error cycle' =>
      rw [hVisit, hVisit'] at hFirst
      exact hFirst
    | ok t' =>
      rw [hVisit, hVisit'] at hFirst
      exact hFirst.elim
  | ok t =>
    cases hVisit' : visit next' (f i) s' with
    | error cycle' =>
      rw [hVisit, hVisit'] at hFirst
      exact hFirst.elim
    | ok t' =>
      rw [hVisit, hVisit'] at hFirst
      have hLater := hRest t t' hVisit hFirst
      simp only
      cases hAll : visitAll next nodes t.val with
      | error cycle =>
        cases hAll' : visitAll next' (nodes.map f) t'.val with
        | error cycle' =>
          rw [hAll, hAll'] at hLater
          exact hLater
        | ok u' =>
          rw [hAll, hAll'] at hLater
          exact hLater.elim
      | ok u =>
        cases hAll' : visitAll next' (nodes.map f) t'.val with
        | error cycle' =>
          rw [hAll, hAll'] at hLater
          exact hLater.elim
        | ok u' =>
          rw [hAll, hAll'] at hLater
          exact hLater

end MirrorsVisit

/-- **Visits mirror each other.** One case for each way in which the first of them
goes on. -/
theorem visit_mirrors (hf : Renumbers P f next next') :
    (∀ i s, P i → ∀ s', Mirrors P f s s' →
      MirrorsVisit P f (visit next i s) (visit next' (f i) s')) ∧
    ∀ nodes s, (∀ i ∈ nodes, P i) → ∀ s', Mirrors P f s s' →
      MirrorsVisit P f (visitAll next nodes s) (visitAll next' (nodes.map f) s') := by
  apply visit.mutual_induct next
    (fun i s => P i → ∀ s', Mirrors P f s s' →
      MirrorsVisit P f (visit next i s) (visit next' (f i) s'))
    (fun nodes s => (∀ i ∈ nodes, P i) → ∀ s', Mirrors P f s s' →
      MirrorsVisit P f (visitAll next nodes s) (visitAll next' (nodes.map f) s'))
  case case1 | case2 =>
    intro i s hFresh _ _ ih hi s' hMirrors
    exact .fresh hf hi hMirrors hFresh (ih (hf.closed i hi) _ (hMirrors.enter hf hi))
  case case3 =>
    -- the node is on both paths
    intro i s hVisiting hi s' hMirrors
    rw [visit_of_visiting hVisiting, visit_of_visiting ((hMirrors.marks_eq i hi).trans hVisiting)]
    exact hMirrors.closedAt_eq hf hi
  case case4 =>
    intro i s hDone hi s' hMirrors
    rw [visit_of_done hDone, visit_of_done ((hMirrors.marks_eq i hi).trans hDone)]
    exact hMirrors
  case case5 =>
    intro i s hNone hi s' hMirrors
    rw [visit_of_none hNone, visit_of_none ((hMirrors.marks_eq i hi).trans hNone)]
    exact hMirrors
  case case6 =>
    intro s _ s' hMirrors
    rw [List.map_nil, visitAll, visitAll]
    exact hMirrors
  case case7 =>
    intro s i rest cycle hVisit ih hNodes s' hMirrors
    refine .cons (ih (hNodes i (by simp)) s' hMirrors) fun t t' hOk _ => ?_
    rw [hVisit] at hOk
    cases hOk
  case case8 | case9 =>
    intro s i rest t hVisit _ _ ih ihRest hNodes s' hMirrors
    obtain ⟨hi, hRest⟩ := List.forall_mem_cons.mp hNodes
    refine .cons (ih hi s' hMirrors) fun u u' hOk hFirst => ?_
    obtain rfl := Except.ok.inj (hVisit.symm.trans hOk)
    exact ihRest hRest u'.val hFirst

end Search

/-- **A search from a root under other numbers** comes to the same order, or to
the same cycle. -/
theorem searchFrom_map {P : Nat → Prop} {f : Nat → Nat} {next next' : Nat → List Nat}
    {size size' root : Nat} (hf : Search.Renumbers P f next next') (hRoot : P root)
    (hSize : ∀ i, P i → (f i < size' ↔ i < size)) :
    searchFrom size' next' (f root) =
      ((searchFrom size next root).map (List.map f)).mapError (List.map f) := by
  have hStart : Search.Mirrors P f (.start size) (.start size') := {
    marks_eq := fun i hi => by simp [Search.start, List.getElem?_replicate, hSize i hi]
    path_mem := by simp [Search.start]
    path_eq := rfl
    order_eq := rfl }
  have hVisits := (Search.visit_mirrors hf).1 root _ hRoot _ hStart
  rw [searchFrom, searchFrom]
  cases hVisit : Search.visit next root (.start size) with
  | error cycle =>
    cases hVisit' : Search.visit next' (f root) (.start size') with
    | error cycle' =>
      rw [hVisit, hVisit'] at hVisits
      exact congrArg Except.error hVisits
    | ok t' =>
      rw [hVisit, hVisit'] at hVisits
      exact hVisits.elim
  | ok t =>
    cases hVisit' : Search.visit next' (f root) (.start size') with
    | error cycle' =>
      rw [hVisit, hVisit'] at hVisits
      exact hVisits.elim
    | ok t' =>
      rw [hVisit, hVisit'] at hVisits
      exact congrArg Except.ok hVisits.order_eq

-- ---------------------------------------------------------------------------
-- Two graphs
-- ---------------------------------------------------------------------------

namespace Graph

variable {α β : Type} {g : Graph α} {g' : Graph β} {next next' : Nat → List Nat}

/-- In a graph of distinct names, a name has the number of its node. -/
theorem WellFormed.addedIndex_eq (hg : g.WellFormed) {i : Nat} (hi : i < g.size) {name : String}
    (hName : g.nameAt i = name) : g.addedIndex name = i := by
  have hIndex : g.index? name = some i :=
    (index?_eq_some_iff hg.distinct).mpr (hName ▸ getElem?_names hi)
  rw [addedIndex, hIndex, Option.getD_some]

section Along

variable (hg : g.WellFormed) (hNext : ∀ i j, j ∈ next i ↔ (j, i) ∈ g.edges) {root : String}
  {start : Nat} (hRoot : g.index? root = some start)

include hg hNext hRoot

/-- The nodes that a search comes to are those of names that the root depends
on. -/
theorem WellFormed.reach_spec {i : Nat} (hi : ReflTransGen (LeadsTo next) start i) :
    i < g.size ∧ ReflTransGen g.DependsOn root (g.nameAt i) := by
  have hName := (index?_eq_some_iff hg.distinct).mp hRoot
  refine ⟨lt_of_reflTransGen (hg.next_lt hNext) (lt_size_of_name hName) hi, ?_⟩
  rw [← nameAt_eq hName]
  exact hi.lift g.nameAt fun a b => hg.dependsOn_nameAt hNext

/-- What the search of a graph comes to, in names. -/
theorem orderAlong_names : (g.orderAlong next root).map (·.map Node.name) =
    ((searchFrom g.size next start).map (List.map g.nameAt)).mapError
      fun cycle => .cycle (cycle.map g.nameAt) := by
  have hReach := fun i hi => (hg.reach_spec hNext hRoot (i := i) hi).1
  have hSpec := searchFrom_spec (hReach start .refl) (hg.next_lt hNext)
  simp only [orderAlong, orderFrom, hRoot]
  cases hSearch : searchFrom g.size next start with
  | error cycle => rfl
  | ok order =>
    rw [hSearch] at hSpec
    have hLt : ∀ i ∈ order, i < g.size := fun i hi => hReach i ((hSpec.2.2 i).mp hi)
    exact congrArg Except.ok (map_name_filterMap order hLt)

end Along

/-- **Graphs that list the same names give the same order**, or the same cycle.
It is enough that they list the same for the names that the root depends on. -/
theorem orderAlong_congr (hg : g.WellFormed) (hg' : g'.WellFormed)
    (hNext : ∀ i j, j ∈ next i ↔ (j, i) ∈ g.edges)
    (hNext' : ∀ i j, j ∈ next' i ↔ (j, i) ∈ g'.edges) {root : String} {start start' : Nat}
    (hRoot : g.index? root = some start) (hRoot' : g'.index? root = some start')
    (hSame : ∀ i < g.size, ∀ j < g'.size, ReflTransGen g.DependsOn root (g.nameAt i) →
      g'.nameAt j = g.nameAt i → (next' j).map g'.nameAt = (next i).map g.nameAt) :
    (g'.orderAlong next' root).map (·.map Node.name) =
      (g.orderAlong next root).map (·.map Node.name) := by
  -- each node is given the number of its name in the other graph
  let f : Nat → Nat := fun i => g'.addedIndex (g.nameAt i)
  have hReach := fun i hi => hg.reach_spec hNext hRoot (i := i) hi
  have hReach' := fun i hi => hg'.reach_spec hNext' hRoot' (i := i) hi
  have hStart : g.nameAt start = g'.nameAt start' := by
    rw [nameAt_eq ((index?_eq_some_iff hg.distinct).mp hRoot),
      nameAt_eq ((index?_eq_some_iff hg'.distinct).mp hRoot')]
  have hThere : ∀ i, ReflTransGen (LeadsTo next) start i →
      f i < g'.size ∧ g'.nameAt (f i) = g.nameAt i := by
    intro i hi
    -- it is enough to find a node of that name
    suffices hNode : ∃ j < g'.size, g'.nameAt j = g.nameAt i by
      obtain ⟨j, hj, hName⟩ := hNode
      have hIndex : f i = j := hg'.addedIndex_eq hj hName
      exact hIndex ▸ ⟨hj, hName⟩
    induction hi with
    | refl => exact ⟨start', (hReach' start' .refl).1, hStart.symm⟩
    | @tail i j hi hStep ih =>
      obtain ⟨k, hk, hName⟩ := ih
      obtain ⟨hLt, hDepends⟩ := hReach i hi
      have hMem : g.nameAt j ∈ (next' k).map g'.nameAt :=
        hSame i hLt k hk hDepends hName ▸ List.mem_map_of_mem hStep
      obtain ⟨l, hl, hEq⟩ := List.mem_map.mp hMem
      exact ⟨l, (hg'.bounded _ ((hNext' k l).mp hl)).1, hEq⟩
  have hf : Search.Renumbers (ReflTransGen (LeadsTo next) start) f next next' := {
    closed := fun i hi j hj => hi.tail hj
    apart := fun i j hi hj hEq => by
      refine hg.nameAt_inj (hReach i hi).1 (hReach j hj).1 ?_
      rw [← (hThere i hi).2, ← (hThere j hj).2, hEq]
    next_eq := fun i hi => by
      obtain ⟨hLt, hName⟩ := hThere i hi
      have hNames := hSame i (hReach i hi).1 (f i) hLt (hReach i hi).2 hName
      -- the numbers of equal names are equal
      have hOwn : ((next' (f i)).map g'.nameAt).map g'.addedIndex = next' (f i) := by
        rw [List.map_map]
        refine (List.map_congr_left fun j hj => ?_).trans (List.map_id _)
        exact hg'.addedIndex_eq (hg'.bounded _ ((hNext' _ _).mp hj)).1 rfl
      rw [← hOwn, hNames, List.map_map]
      rfl }
  have hSearch := searchFrom_map hf .refl
    fun i hi => iff_of_true (hThere i hi).1 (hReach i hi).1
  have hIndex : f start = start' := hg'.addedIndex_eq (hReach' start' .refl).1 hStart.symm
  rw [hIndex] at hSearch
  have hNamed : ∀ nodes : List Nat, (∀ i ∈ nodes, ReflTransGen (LeadsTo next) start i) →
      (nodes.map f).map g'.nameAt = nodes.map g.nameAt := by
    intro nodes hNodes
    rw [List.map_map]
    exact List.map_congr_left fun i hi => (hThere i (hNodes i hi)).2
  have hSpec := searchFrom_spec (hReach start .refl).1 (hg.next_lt hNext)
  rw [orderAlong_names hg hNext hRoot, orderAlong_names hg' hNext' hRoot', hSearch]
  cases hOrder : searchFrom g.size next start with
  | error cycle =>
    rw [hOrder] at hSpec
    exact congrArg (fun names => Except.error (GraphFault.cycle names)) (hNamed cycle hSpec.2)
  | ok order =>
    rw [hOrder] at hSpec
    exact congrArg Except.ok (hNamed order fun i hi => (hSpec.2.2 i).mp hi)

end Graph

end TaskMill
