import TaskMill.Proofs.Growth
/-!
# TaskMill — the naive order

The naive order of a node is that of everything it depends on, one dependency
after the other, and then the node itself. It **unfolds** the graph into a tree:
what is depended on twice stands in it twice, with all beneath it, so that it can
be exponentially long. Dependencies are taken in ascending order of a key and,
where keys are equal, of the node number (`Ranked`).

A search places each node once and passes over what is done. What it comes to is
the naive order with the first mention of each node kept: a visit adds to the order
what unfolding its nodes adds, and nothing that stood there before moves.

## Results

* `Search.Unfolds.unique`, `Founded.exists_unfolds` — where there is no circle,
  there is one naive order.
* `Search.order_visitAll` — what a visit places.
* `Graph.order_unfolds` — orders are naive orders without repetitions, for every
  graph that calls lead to and every key.
-/

namespace TaskMill

open Relation (ReflTransGen TransGen)

-- ---------------------------------------------------------------------------
-- First mentions
-- ---------------------------------------------------------------------------

section FirstMentions

variable {l more : List Nat}

theorem eraseDups_of_nodup (h : l.Nodup) : l.eraseDups = l := by
  induction l with
  | nil => rfl
  | cons a rest ih =>
    obtain ⟨hNew, hRest⟩ := List.nodup_cons.mp h
    have hKept : rest.filter (fun b => !b == a) = rest := by
      rw [List.filter_eq_self]
      intro b hb
      have hNe : b ≠ a := ne_of_mem_of_not_mem hb hNew
      simpa using hNe
    rw [List.eraseDups_cons, hKept, ih hRest]

theorem eraseDups_append_of_subset (h : ∀ x ∈ more, x ∈ l) :
    (l ++ more).eraseDups = l.eraseDups := by
  have hNone : more.removeAll l = [] := by
    unfold List.removeAll
    rw [List.filter_eq_nil_iff]
    intro x hx
    simpa using h x hx
  rw [List.eraseDups_append, hNone, List.eraseDups_nil, List.append_nil]

theorem eraseDups_concat_of_notMem {x : Nat} (h : x ∉ l) :
    (l ++ [x]).eraseDups = l.eraseDups ++ [x] := by
  have hOne : [x].removeAll l = [x] := by simp [List.removeAll, h]
  rw [List.eraseDups_append, hOne, eraseDups_of_nodup (List.nodup_singleton x)]

theorem eraseDups_eraseDups_append (h : l.eraseDups.Nodup) :
    (l.eraseDups ++ more).eraseDups = (l ++ more).eraseDups := by
  have hSame : more.removeAll l.eraseDups = more.removeAll l := by
    unfold List.removeAll
    simp
  rw [List.eraseDups_append, List.eraseDups_append, eraseDups_of_nodup h, hSame]

end FirstMentions

-- ---------------------------------------------------------------------------
-- Unfolding
-- ---------------------------------------------------------------------------

namespace Search

/-- What some nodes unfold to, one after the other: each node after what the nodes
that are listed for it unfold to. -/
inductive Unfolds (lists : Nat → List Nat → Prop) : List Nat → List Nat → Prop where
  | nil : Unfolds lists [] []
  | cons {i : Nat} {rest deps before later : List Nat} (hLists : lists i deps)
      (hBefore : Unfolds lists deps before) (hLater : Unfolds lists rest later) :
      Unfolds lists (i :: rest) (before ++ i :: later)

variable {lists : Nat → List Nat → Prop} {next : Nat → List Nat} {nodes unfolded : List Nat}
  {s : Search} {i size : Nat}

theorem Unfolds.unique (hOne : ∀ i a b, lists i a → lists i b → a = b)
    (h : Unfolds lists nodes unfolded) {other : List Nat} (hOther : Unfolds lists nodes other) :
    other = unfolded := by
  induction h generalizing other with
  | nil =>
    cases hOther
    rfl
  | cons hLists _ _ ihBefore ihLater =>
    cases hOther with
    | cons hLists' hBefore' hLater' =>
      obtain rfl := hOne _ _ _ hLists hLists'
      rw [ihBefore hBefore', ihLater hLater']

/-- All that nodes unfold to is led to by them. -/
theorem Unfolds.led (hNext : ∀ i deps, lists i deps → deps = next i)
    (h : Unfolds lists nodes unfolded) :
    ∀ x ∈ unfolded, ∃ i ∈ nodes, ReflTransGen (LeadsTo next) i x := by
  induction h with
  | nil => simp
  | @cons i rest deps before later hLists _ _ ihBefore ihLater =>
    intro x hx
    rcases List.mem_append.mp hx with hx | hx
    · obtain ⟨j, hj, hjx⟩ := ihBefore x hx
      rw [hNext i deps hLists] at hj
      exact ⟨i, by simp, .head hj hjx⟩
    · rcases List.mem_cons.mp hx with rfl | hx
      · exact ⟨x, by simp, .refl⟩
      · obtain ⟨j, hj, hjx⟩ := ihLater x hx
        exact ⟨j, List.mem_cons_of_mem _ hj, hjx⟩

/-- Where nodes have an order in which each comes after all it leads to, they
unfold. The induction takes the last node of the order away. -/
theorem exists_unfolds (hLists : ∀ i, lists i (next i)) {order : List Nat}
    (hFounded : Founded (LeadsTo next) order) (hNodes : ∀ i ∈ nodes, i ∈ order) :
    ∃ unfolded, Unfolds lists nodes unfolded := by
  induction order using List.reverseRecOn generalizing nodes with
  | nil =>
    obtain rfl : nodes = [] :=
      List.eq_nil_iff_forall_not_mem.mpr fun i hi => by simpa using hNodes i hi
    exact ⟨[], .nil⟩
  | append_singleton order last ih =>
    induction nodes with
    | nil => exact ⟨[], .nil⟩
    | cons i rest ihRest =>
      obtain ⟨later, hLater⟩ := ihRest fun j hj => hNodes j (List.mem_cons_of_mem _ hj)
      have hBefore : ∀ j ∈ next i, j ∈ order := by
        intro j hj
        rcases List.mem_append.mp (hNodes i (by simp)) with hi | hi
        · exact hFounded.front.closed hi (.single hj)
        · obtain rfl : i = last := by simpa using hi
          exact hFounded order i [] rfl j hj
      obtain ⟨before, hUnfolds⟩ := ih hFounded.front hBefore
      exact ⟨before ++ i :: later, .cons (hLists i) hUnfolds hLater⟩

-- ---------------------------------------------------------------------------
-- What a visit places
-- ---------------------------------------------------------------------------

/-- A visit of one node places what the node unfolds to, if the visit of what it
leads to does. -/
theorem order_visit (hNext : ∀ i < size, ∀ j ∈ next i, j < size) (hReady : Ready next size [i] s)
    {before : List Nat} (hLed : ∀ x ∈ before, ReflTransGen (LeadsTo next) i x)
    (hAll : s.marks[i]? = some .unvisited → ∀ t, visitAll next (next i) (s.enter i) = .ok t →
      t.val.order = (s.order ++ before).eraseDups)
    {u : s.After} (hVisit : visit next i s = .ok u) :
    u.val.order = (s.order ++ (before ++ [i])).eraseDups := by
  have hConsistent := hReady.consistent
  cases hMark : s.marks[i]? with
  | none =>
    have hLt := hReady.bound i (by simp)
    rw [List.getElem?_eq_none_iff, hReady.size_eq] at hMark
    omega
  | some mark =>
    cases mark with
    | visiting =>
      rw [visit_of_visiting hMark] at hVisit
      cases hVisit
    | done =>
      -- all that a placed node leads to has been placed
      rw [visit_of_done hMark] at hVisit
      obtain rfl := Except.ok.inj hVisit
      have hPlaced := (hConsistent.done i).mp hMark
      have hOld : ∀ x ∈ before ++ [i], x ∈ s.order := by
        intro x hx
        rcases List.mem_append.mp hx with hx | hx
        · exact hConsistent.founded.closed hPlaced (hLed x hx)
        · obtain rfl : x = i := by simpa using hx
          exact hPlaced
      rw [eraseDups_append_of_subset hOld, eraseDups_of_nodup hConsistent.order_nodup]
    | unvisited =>
      rw [visit_of_unvisited hMark] at hVisit
      cases hInner : visitAll next (next i) (s.enter i) with
      | error cycle =>
        rw [hInner] at hVisit
        cases hVisit
      | ok t =>
        rw [hInner] at hVisit
        obtain rfl := Except.ok.inj hVisit
        have hSettled := (visit_visited hNext).2 (next i) _ (hReady.enter hNext hMark)
        rw [hInner] at hSettled
        -- the node is on the path until it is left
        have hPath : i ∈ t.val.path := by
          rw [hSettled.path_eq]
          simp [enter]
        have hVisiting := (hSettled.consistent.visiting i).mpr hPath
        have hNew : i ∉ t.val.order := by
          intro hi
          have hDone := (hSettled.consistent.done i).mpr hi
          rw [hVisiting] at hDone
          cases hDone
        have hOrder := hAll hMark t hInner
        rw [hOrder, List.mem_eraseDups] at hNew
        show t.val.order ++ [i] = (s.order ++ (before ++ [i])).eraseDups
        rw [hOrder, ← List.append_assoc, eraseDups_concat_of_notMem hNew]

/-- **What a visit places** is what its nodes unfold to, but for what has been
placed already and for repetitions. -/
theorem order_visitAll (hNext : ∀ i < size, ∀ j ∈ next i, j < size)
    (hLists : ∀ i deps, lists i deps → deps = next i) (h : Unfolds lists nodes unfolded)
    (hReady : Ready next size nodes s) {t : s.After} (hVisit : visitAll next nodes s = .ok t) :
    t.val.order = (s.order ++ unfolded).eraseDups := by
  induction h generalizing s with
  | nil =>
    rw [visitAll] at hVisit
    obtain rfl := Except.ok.inj hVisit
    rw [List.append_nil, eraseDups_of_nodup hReady.consistent.order_nodup]
  | @cons i rest deps before later hDeps hBefore hLater ihBefore ihLater =>
    obtain rfl := hLists i deps hDeps
    rw [visitAll] at hVisit
    cases hFirst : visit next i s with
    | error cycle =>
      rw [hFirst] at hVisit
      cases hVisit
    | ok u =>
      rw [hFirst] at hVisit
      simp only at hVisit
      cases hRest : visitAll next rest u.val with
      | error cycle =>
        rw [hRest] at hVisit
        cases hVisit
      | ok w =>
        rw [hRest] at hVisit
        obtain rfl := Except.ok.inj hVisit
        have hSettled := (visit_visited hNext).1 i s hReady.first
        rw [hFirst] at hSettled
        have hLed : ∀ x ∈ before, ReflTransGen (LeadsTo next) i x := by
          intro x hx
          obtain ⟨j, hj, hjx⟩ := hBefore.led hLists x hx
          exact .head hj hjx
        have hOrder := order_visit hNext hReady.first hLed
          (fun hMark t => ihBefore (hReady.first.enter hNext hMark)) hFirst
        have hNodup := hSettled.consistent.order_nodup
        rw [hOrder] at hNodup
        show w.val.order = _
        rw [ihLater (hReady.rest hSettled) hRest, hOrder, eraseDups_eraseDups_append hNodup]
        simp

end Search

/-- **A search from a root places what the root unfolds to**, each node where it is
first mentioned. -/
theorem searchFrom_unfolds {lists : Nat → List Nat → Prop} {next : Nat → List Nat} {size root : Nat}
    (hRoot : root < size) (hNext : ∀ i < size, ∀ j ∈ next i, j < size)
    (hLists : ∀ i deps, lists i deps ↔ deps = next i) {order : List Nat}
    (hOrder : searchFrom size next root = .ok order) :
    ∃ unfolded, Search.Unfolds lists [root] unfolded ∧ order = unfolded.eraseDups := by
  have hSpec := searchFrom_spec hRoot hNext
  rw [hOrder] at hSpec
  obtain ⟨-, hFounded, hMem⟩ := hSpec
  have hRootIn : ∀ i ∈ [root], i ∈ order := by
    intro i hi
    rw [List.mem_singleton.mp hi]
    exact (hMem root).mpr .refl
  obtain ⟨unfolded, hUnfolds⟩ :=
    Search.exists_unfolds (fun i => (hLists i _).mpr rfl) hFounded hRootIn
  refine ⟨unfolded, hUnfolds, ?_⟩
  rw [searchFrom] at hOrder
  cases hVisit : Search.visit next root (.start size) with
  | error cycle =>
    rw [hVisit] at hOrder
    cases hOrder
  | ok t =>
    rw [hVisit] at hOrder
    obtain rfl := Except.ok.inj hOrder
    have hAll : Search.visitAll next [root] (.start size) = .ok t := by
      rw [Search.visitAll, hVisit]
      simp only [Search.visitAll]
    have hPlaced := Search.order_visitAll hNext (fun i deps => (hLists i deps).mp) hUnfolds
      (Search.start_ready (by simpa using hRoot)) hAll
    simpa [Search.start] using hPlaced

-- ---------------------------------------------------------------------------
-- Orders of a graph
-- ---------------------------------------------------------------------------

namespace Graph

variable {α κ : Type} [Ord κ] {g : Graph α} {key : Nat → κ}

/-- Node `a` comes before node `b`: its key is less, or the keys are equal and its
number is less. -/
def Ahead (key : Nat → κ) (a b : Nat) : Prop :=
  compare (key a) (key b) = .lt ∨ (compare (key a) (key b) = .eq ∧ a < b)

/-- The dependencies of node `i`, once each and in ascending order. -/
structure Ranked (g : Graph α) (key : Nat → κ) (i : Nat) (deps : List Nat) : Prop where
  mem_iff   : ∀ d, d ∈ deps ↔ (d, i) ∈ g.edges
  ascending : deps.Pairwise (Ahead key)

/-- Nodes are those of the one naive order of node `start`, each where it is first
mentioned. -/
def IsNaiveOrder (g : Graph α) (key : Nat → κ) (start : Nat) (nodes : List (Node α)) : Prop :=
  ∃ unfolded, Search.Unfolds (g.Ranked key) [start] unfolded ∧
    (∀ other, Search.Unfolds (g.Ranked key) [start] other → other = unfolded) ∧
    nodes = unfolded.eraseDups.filterMap (g.nodes[·]?)

instance : DecidableRel (Ahead key) :=
  fun _ _ => inferInstanceAs (Decidable (_ ∨ _ ∧ _))

theorem ahead_iff {a b : Nat} : Ahead key a b ↔ keyThenIndex key a b = .lt := by
  unfold Ahead keyThenIndex
  rw [Ordering.then_eq_lt, Nat.compare_eq_lt]

section Ordered

variable [Std.TransOrd κ]

instance : Std.Irrefl (Ahead key) where
  irrefl a h := by
    have hSelf : keyThenIndex key a a = .eq := Std.ReflCmp.compare_self
    rw [ahead_iff, hSelf] at h
    cases h

instance : Std.Antisymm (Ahead key) where
  antisymm a b hab hba := by
    have hSwap : keyThenIndex key a b = (keyThenIndex key b a).swap := Std.OrientedCmp.eq_swap
    rw [ahead_iff] at hab hba
    rw [hSwap, hba] at hab
    cases hab

theorem ranked_siblings (hEdges : g.edges.Nodup) (i : Nat) :
    g.Ranked key i (g.siblings key i) where
  mem_iff d := mem_siblings
  ascending := by
    refine (pairwise_siblings hEdges key i).imp ?_
    rintro a b ⟨hNe, hLE⟩
    -- nodes that are neither before nor after each other are one node
    rcases Ordering.isLE_iff_eq_lt_or_eq_eq.mp hLE with hLt | hEq
    · exact ahead_iff.mpr hLt
    · unfold keyThenIndex at hEq
      rw [Ordering.then_eq_eq, Nat.compare_eq_eq] at hEq
      exact absurd hEq.2 hNe

/-- The siblings are all that is ranked. -/
theorem ranked_iff (hEdges : g.edges.Nodup) {i : Nat} {deps : List Nat} :
    g.Ranked key i deps ↔ deps = g.siblings key i := by
  have hRanked : g.Ranked key i (g.siblings key i) := ranked_siblings hEdges i
  constructor
  · intro h
    exact h.ascending.eq_of_mem_iff hRanked.ascending fun d =>
      (h.mem_iff d).trans (hRanked.mem_iff d).symm
  · rintro rfl
    exact hRanked

/-- Beneath a root in no circle, the order along the siblings is the naive one. -/
theorem isNaiveOrder_orderAlong (hg : g.WellFormed) (hEdges : g.edges.Nodup) {root : String}
    {start : Nat} (hRoot : g.index? root = some start)
    (hNoCircle : ∀ a, ReflTransGen g.DependsOn root a → ¬ TransGen g.DependsOn a a) :
    ∃ nodes, g.orderAlong (g.siblings key) root = .ok nodes ∧ g.IsNaiveOrder key start nodes := by
  have hNext : ∀ i j, j ∈ g.siblings key i ↔ (j, i) ∈ g.edges := fun _ _ => mem_siblings
  have hLt := lt_size_of_name ((index?_eq_some_iff hg.distinct).mp hRoot)
  have hSpec := orderAlong_spec hg hNext root
  unfold orderAlong at hSpec ⊢
  simp only [hRoot, orderFrom] at hSpec ⊢
  cases hSearch : searchFrom g.size (g.siblings key) start with
  | error cycle =>
    simp only [hSearch] at hSpec
    rcases hSpec with ⟨hFault, -⟩ | ⟨names, -, hCycle, hReached⟩
    · cases hFault
    · obtain ⟨a, ha, hCircle⟩ := hCycle.exists_transGen
      exact absurd hCircle (hNoCircle a (hReached a ha))
  | ok order =>
    obtain ⟨unfolded, hUnfolds, rfl⟩ := searchFrom_unfolds hLt (hg.next_lt hNext)
      (fun i deps => ranked_iff hEdges) hSearch
    refine ⟨_, rfl, unfolded, hUnfolds, ?_, rfl⟩
    intro other hOther
    refine hUnfolds.unique ?_ hOther
    intro i a b ha hb
    rw [(ranked_iff hEdges).mp ha, (ranked_iff hEdges).mp hb]

end Ordered

/--
**Orders are naive orders without repetitions.** In a graph that calls lead to,
beneath a root under which there is no circle, the order by a key is the naive order
of the root, each node where it is first mentioned, whatever the key; and the order
without a key is the one by the node number.
-/
theorem order_unfolds [Dependent α] {adds : List (String × α)} (hGrows : Grows .empty adds g)
    {root : String} {start : Nat} (hRoot : g.index? root = some start)
    (hNoCircle : ∀ a, ReflTransGen g.DependsOn root a → ¬ TransGen g.DependsOn a a) :
    (∀ (κ : Type) [Ord κ] [Std.TransOrd κ] (key : Node α → κ), ∃ nodes,
      g.orderBy root key = .ok nodes ∧ g.IsNaiveOrder (fun i => g.nodes[i]?.map key) start nodes) ∧
    ∃ nodes, g.order root = .ok nodes ∧ g.IsNaiveOrder id start nodes := by
  have hKeeps : Keeps adds g := Keeps.empty.grows hGrows
  refine ⟨?_, isNaiveOrder_orderAlong hKeeps.wellFormed hKeeps.once hRoot hNoCircle⟩
  intro κ _ _ key
  exact isNaiveOrder_orderAlong hKeeps.wellFormed hKeeps.once hRoot hNoCircle

-- ---------------------------------------------------------------------------
-- A diamond
-- ---------------------------------------------------------------------------

namespace Diamond

def adds : List (String × List String) :=
  [("app", ["b", "a"]), ("b", ["c", "d"]), ("a", ["c"]), ("c", []), ("d", [])]

def nodes : List (Node (List String)) := adds.map fun entry => ⟨entry.1, entry.2⟩

def graph : Graph (List String) := ⟨nodes, [(1, 0), (2, 0), (3, 1), (4, 1), (3, 2)]⟩

theorem grows : Grows .empty adds graph := by
  have hEmpty : Grows (.empty : Graph (List String)) [] .empty := .refl
  have hAdded := ((((hEmpty.tail (.add "app" ["b", "a"])).tail (.add "b" ["c", "d"])).tail
    (.add "a" ["c"])).tail (.add "c" [])).tail (.add "d" [])
  have hLink : (⟨nodes, []⟩ : Graph (List String)).link = .ok graph := by decide
  exact hAdded.tail (.linked hLink)

/-- Each name depends on names added after it. -/
theorem idxOf_lt {a b : String} (h : graph.DependsOn a b) :
    (adds.map Prod.fst).idxOf a < (adds.map Prod.fst).idxOf b := by
  obtain ⟨i, j, hi, hj, hEdge⟩ := h
  simp only [graph, List.mem_cons, Prod.mk.injEq, List.not_mem_nil, or_false] at hEdge
  rcases hEdge with ⟨rfl, rfl⟩ | ⟨rfl, rfl⟩ | ⟨rfl, rfl⟩ | ⟨rfl, rfl⟩ | ⟨rfl, rfl⟩
  all_goals
    obtain rfl := Option.some.inj hi
    obtain rfl := Option.some.inj hj
    decide

theorem no_circle (a : String) : ¬ TransGen graph.DependsOn a a := by
  intro hCircle
  have hLt := hCircle.lift (adds.map Prod.fst).idxOf fun _ _ => idxOf_lt
  rw [Relation.transGen_eq_self] at hLt
  omega

/-- The fewer dependencies, the earlier. -/
def weight (i : Nat) : Option Nat := graph.nodes[i]?.map fun node => node.data.length

theorem ranked {i : Nat} {deps : List Nat} (hLt : ∀ d ∈ deps, d < 5)
    (hMem : ∀ d ∈ List.range 5, d ∈ deps ↔ (d, i) ∈ graph.edges)
    (hAscending : deps.Pairwise (Ahead weight)) : graph.Ranked weight i deps := by
  have hEdges : ∀ e ∈ graph.edges, e.1 < 5 := by decide
  refine ⟨fun d => ⟨fun hd => ?_, fun hd => ?_⟩, hAscending⟩
  · exact (hMem d (List.mem_range.mpr (hLt d hd))).mp hd
  · exact (hMem d (List.mem_range.mpr (hEdges _ hd))).mpr hd

/-- What `c` and `d` are for `b`, and `c` for `a`, stands in the naive order each
time. -/
theorem unfolds : Search.Unfolds (graph.Ranked weight) [0] [3, 2, 3, 4, 1, 0] := by
  have hC : graph.Ranked weight 3 [] := ranked (by decide) (by decide) (by decide)
  have hD : graph.Ranked weight 4 [] := ranked (by decide) (by decide) (by decide)
  have hA : graph.Ranked weight 2 [3] := ranked (by decide) (by decide) (by decide)
  have hB : graph.Ranked weight 1 [3, 4] := ranked (by decide) (by decide) (by decide)
  have hApp : graph.Ranked weight 0 [2, 1] := ranked (by decide) (by decide) (by decide)
  have hBeneathA : Search.Unfolds (graph.Ranked weight) [3] [3] := .cons hC .nil .nil
  have hBeneathB : Search.Unfolds (graph.Ranked weight) [3, 4] [3, 4] :=
    .cons hC .nil (.cons hD .nil .nil)
  exact .cons hApp (.cons hA hBeneathA (.cons hB hBeneathB .nil)) .nil

end Diamond

/-- Of two dependencies, the one with fewer of its own goes first, and what both
depend on stands before it. -/
theorem order_unfolds_diamond : Grows .empty Diamond.adds Diamond.graph ∧
    Diamond.graph.index? "app" = some 0 ∧
    (∀ a, ReflTransGen Diamond.graph.DependsOn "app" a →
      ¬ TransGen Diamond.graph.DependsOn a a) ∧
    Diamond.graph.orderBy "app" (fun node => node.data.length) =
      .ok [⟨"c", []⟩, ⟨"a", ["c"]⟩, ⟨"d", []⟩, ⟨"b", ["c", "d"]⟩, ⟨"app", ["b", "a"]⟩] := by
  have hRoot : Diamond.graph.index? "app" = some 0 := by decide
  refine ⟨Diamond.grows, hRoot, fun a _ => Diamond.no_circle a, ?_⟩
  obtain ⟨nodes, hOrder, unfolded, -, hUnique, rfl⟩ :=
    (order_unfolds Diamond.grows hRoot fun a _ => Diamond.no_circle a).1 Nat
      fun node => node.data.length
  rw [hOrder, ← hUnique _ Diamond.unfolds]
  decide

end Graph

end TaskMill
