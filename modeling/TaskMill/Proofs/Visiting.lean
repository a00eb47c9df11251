import TaskMill.Proofs.Cycles
/-!
# TaskMill — searching in place

A search can change its marks, its path and its order in place, and look up by number
whatever it needs (`visiting`). Then much can go wrong that a search by value has no
words for: a number may be that of no node, the node that closes a cycle may not be
found on the path, and calls may lie within calls without end. A search in place halts
at each of these (`Halt`), is given room for as many calls, one within the other, as
there are nodes and one more, and writes down every call before it is made.

It halts at none of them. Before every call, marks, path and order are in step with
each other and with the edges (`InStep`), so the search in place comes to what the
search by value does.

## Results

* `visiting_does`  — a visit in place does what the visit by value does.
* `calls_in_step`  — both searches of a graph that calls lead to, and all their calls.
-/

namespace TaskMill

/-- A call to visit a node, and where the search stands before it. -/
structure Search.Call where
  node : Nat
  search : Search
  deriving DecidableEq, Inhabited

namespace Graph

variable {α : Type}

-- ---------------------------------------------------------------------------
-- In place
-- ---------------------------------------------------------------------------

/-- What a search in place halts at. -/
inductive Halt where
  /-- A fault that is to be told. -/
  | fault (fault : GraphFault)
  /-- A number that is looked up is that of no node. -/
  | stray
  /-- A node that is being visited is not found on the path. -/
  | lost
  /-- There is no room for one more call. -/
  | deep
  deriving DecidableEq, Inhabited

/-- Where a search in place stands, and the calls made so far. -/
structure Descent where
  search : Search
  calls : List Search.Call
  deriving DecidableEq, Inhabited

/-- A search of so many nodes before its first call. -/
def Descent.start (size : Nat) : Descent := ⟨.start size, []⟩

/-- A part of a search in place. What it has changed before a halt stays so. -/
abbrev Descending (β : Type) : Type := ExceptT Halt (StateM Descent) β

namespace Descending

variable {β γ : Type} {d : Descent}

/-- What a part of a search comes to, and where it leaves the search. -/
def comesTo (part : Descending β) (d : Descent) : Except Halt β × Descent := part.run.run d

@[simp] theorem comesTo_pure (b : β) : comesTo (pure b) d = (.ok b, d) := rfl

@[simp] theorem comesTo_throw (halt : Halt) :
    comesTo (throw halt : Descending β) d = (.error halt, d) := rfl

@[simp] theorem comesTo_get : comesTo get d = (.ok d, d) := rfl

@[simp] theorem comesTo_modify (f : Descent → Descent) : comesTo (modify f) d = (.ok (), f d) := rfl

@[simp] theorem comesTo_bind (part : Descending β) (rest : β → Descending γ) :
    comesTo (part >>= rest) d = match part.comesTo d with
      | (.ok b, t) => (rest b).comesTo t
      | (.error halt, t) => (.error halt, t) := by
  have hRun : comesTo (part >>= rest) d =
      (ExceptT.bindCont rest (part.comesTo d).1).run (part.comesTo d).2 := rfl
  rw [hRun]
  rcases part.comesTo d with ⟨_ | _, t⟩ <;> rfl

end Descending

/-- What reaching node `i` once more halts at: the cycle from where the node is found
on the path, by name. -/
def closing (g : Graph α) (path : List Nat) (i : Nat) : Halt :=
  match path.findIdx? (· = i) with
  | none => .lost
  | some place =>
    match (path.drop place ++ [i]).mapM (g.nodes[·]?) with
    | none => .stray
    | some cycle => .fault (.cycle (cycle.map Node.name))

/-- Visits a node in place; there is room for `room` calls, one within the other. -/
def visiting (g : Graph α) (next : Nat → List Nat) : (room : Nat) → (i : Nat) → Descending Unit
  | 0, _ => throw .deep
  | room + 1, i => do
    let s := (← get).search
    modify fun d => { d with calls := d.calls ++ [⟨i, s⟩] }
    match s.marks[i]? with
    | none => throw .stray
    | some .done => pure ()
    | some .visiting => throw (g.closing s.path i)
    | some .unvisited =>
      modify fun d => { d with search := d.search.enter i }
      -- whatever is to be sorted is looked up for its key
      match (next i).mapM (g.nodes[·]?) with
      | none => throw .stray
      | some _ =>
        forM (next i) (g.visiting next room)
        modify fun d => { d with search := d.search.leave i }

/-- Orders `root` and all that it leads to, in place. -/
def ordering (g : Graph α) (next : Nat → List Nat) (root : String) : Descending (List (Node α)) :=
  match g.index? root with
  | none => throw (.fault (.notFound root))
  | some start => do
    g.visiting next (g.size + 1) start
    match (← get).search.order.mapM (g.nodes[·]?) with
    | none => throw .stray
    | some nodes => pure nodes

/-- Visits all nodes in place, in turn; those that have been visited are passed
over. -/
def sweeping (g : Graph α) (next : Nat → List Nat) : Descending Unit :=
  forM (List.range g.size) fun (i : Nat) => do
    match (← get).search.marks[i]? with
    | none => throw .stray
    | some .unvisited => g.visiting next (g.size + 1) i
    | some _ => pure ()

-- ---------------------------------------------------------------------------
-- One call further
-- ---------------------------------------------------------------------------

variable {g : Graph α} {next : Nat → List Nat} {i room : Nat} {nodes : List Nat} {s : Search}
  {d : Descent}

/-- What a visit in place comes to, one call further. -/
theorem comesTo_visiting :
    (g.visiting next (room + 1) i).comesTo d =
      match d.search.marks[i]? with
      | none => (.error .stray, ⟨d.search, d.calls ++ [⟨i, d.search⟩]⟩)
      | some .done => (.ok (), ⟨d.search, d.calls ++ [⟨i, d.search⟩]⟩)
      | some .visiting =>
        (.error (g.closing d.search.path i), ⟨d.search, d.calls ++ [⟨i, d.search⟩]⟩)
      | some .unvisited =>
        match (next i).mapM (g.nodes[·]?) with
        | none => (.error .stray, ⟨d.search.enter i, d.calls ++ [⟨i, d.search⟩]⟩)
        | some _ =>
          match Descending.comesTo (forM (next i) (g.visiting next room))
              ⟨d.search.enter i, d.calls ++ [⟨i, d.search⟩]⟩ with
          | (.ok _, t) => (.ok (), ⟨t.search.leave i, t.calls⟩)
          | (.error halt, t) => (.error halt, t) := by
  rw [visiting]
  simp only [Descending.comesTo_bind, Descending.comesTo_get, Descending.comesTo_modify]
  cases d.search.marks[i]? with
  | none => rfl
  | some mark =>
    cases mark with
    | done => rfl
    | visiting => rfl
    | unvisited =>
      cases (next i).mapM (g.nodes[·]?) with
      | none => rfl
      | some _ =>
        simp only [Descending.comesTo_bind, Descending.comesTo_modify]
        rcases Descending.comesTo (forM (next i) (g.visiting next room)) _ with ⟨_ | _, t⟩ <;> rfl

theorem mapM_getElem?_nodes (hLt : ∀ i ∈ nodes, i < g.size) :
    nodes.mapM (g.nodes[·]?) = some (nodes.filterMap (g.nodes[·]?)) := by
  induction nodes with
  | nil => rfl
  | cons i rest ih =>
    obtain ⟨hi, hRest⟩ := List.forall_mem_cons.mp hLt
    have hNode : g.nodes[i]? = some g.nodes[i] := List.getElem?_eq_getElem hi
    rw [List.mapM_cons, List.filterMap_cons, ih hRest, hNode]
    rfl

/-- Reaching a node of the path once more halts at the cycle that this closes. -/
theorem closing_eq (hPath : i ∈ s.path) (hLt : ∀ j ∈ s.path, j < g.size) :
    g.closing s.path i = .fault (.cycle ((s.closedAt i).map g.nameAt)) := by
  have hFind : s.path.findIdx? (· = i) = some (s.path.findIdx (· = i)) :=
    List.findIdx?_eq_some_of_exists ⟨i, hPath, decide_eq_true rfl⟩
  have hDrop : s.path.drop (s.path.findIdx (· = i)) ++ [i] = s.closedAt i := by
    rw [Search.closedAt, List.dropWhile_eq_drop_findIdx_not]
    simp
  have hCycle : ∀ j ∈ s.closedAt i, j < g.size := fun j hj =>
    hLt j (Search.Consistent.mem_path_of_mem_closedAt hPath hj)
  simp only [closing, hFind, hDrop, mapM_getElem?_nodes hCycle, map_name_filterMap _ hCycle]

-- ---------------------------------------------------------------------------
-- All calls
-- ---------------------------------------------------------------------------

/-- A part of a search in place does what an answer says, be that a search or a cycle,
and the calls that it makes meanwhile, `more`, may all be made. -/
inductive Does (g : Graph α) (next : Nat → List Nat) (part : Descending Unit) (d : Descent) :
    Except (List Nat) Search → Prop where
  | settled {t : Search} {more : List Search.Call}
      (hMore : ∀ c ∈ more, Search.Ready next g.size [c.node] c.search)
      (hEnds : part.comesTo d = (.ok (), ⟨t, d.calls ++ more⟩)) : Does g next part d (.ok t)
  | cycle {cycle : List Nat} {more : List Search.Call} (t : Search)
      (hMore : ∀ c ∈ more, Search.Ready next g.size [c.node] c.search)
      (hHalts : part.comesTo d =
        (.error (.fault (.cycle (cycle.map g.nameAt))), ⟨t, d.calls ++ more⟩)) :
      Does g next part d (.error cycle)

/-- One part after another does what their answers say one after the other. -/
theorem Does.bind {part rest : Descending Unit} {first : Except (List Nat) Search}
    {later : Search → Except (List Nat) Search} (hPart : Does g next part d first)
    (hRest : ∀ t, first = .ok t → ∀ calls, Does g next rest ⟨t, calls⟩ (later t)) :
    Does g next (part >>= fun _ => rest) d (first.bind later) := by
  cases hPart with
  | cycle t hMore hHalts => exact .cycle t hMore (by rw [Descending.comesTo_bind, hHalts])
  | @settled t more hMore hEnds =>
    have hBoth : Descending.comesTo (part >>= fun _ => rest) d =
        rest.comesTo ⟨t, d.calls ++ more⟩ := by rw [Descending.comesTo_bind, hEnds]
    have hLast := hRest t rfl (d.calls ++ more)
    show Does g next _ d (later t)
    generalize later t = answer at hLast ⊢
    cases hLast with
    | cycle u hLater hHalts =>
      refine .cycle u (List.forall_mem_append.mpr ⟨hMore, hLater⟩) ?_
      rw [hBoth, hHalts, List.append_assoc]
    | settled hLater hEnds =>
      refine .settled (List.forall_mem_append.mpr ⟨hMore, hLater⟩) ?_
      rw [hBoth, hEnds, List.append_assoc]

/-- A part that changes nothing and makes no calls. -/
theorem Does.nothing {part : Descending Unit} (hEnds : part.comesTo d = (.ok (), d)) :
    Does g next part d (.ok d.search) :=
  .settled (fun _ hc => absurd hc List.not_mem_nil) (by rw [hEnds, List.append_nil])

/-- What one part does, another one does that comes to the same. -/
theorem Does.of_comesTo {part other : Descending Unit} {answer : Except (List Nat) Search}
    (hOther : Does g next other d answer) (hSame : part.comesTo d = other.comesTo d) :
    Does g next part d answer := by
  cases hOther with
  | cycle t hMore hHalts => exact .cycle t hMore (hSame.trans hHalts)
  | settled hMore hEnds => exact .settled hMore (hSame.trans hEnds)

theorem map_visitAll_cons : (Search.visitAll next (i :: nodes) s).map Subtype.val =
    ((Search.visit next i s).map Subtype.val).bind fun t =>
      (Search.visitAll next nodes t).map Subtype.val := by
  rw [Search.visitAll]
  cases Search.visit next i s with
  | error cycle => rfl
  | ok t =>
    show _ = (Search.visitAll next nodes t.val).map Subtype.val
    cases hRest : Search.visitAll next nodes t.val <;> simp only [hRest] <;> rfl

theorem map_visit_of_unvisited (hMark : s.marks[i]? = some .unvisited) :
    (Search.visit next i s).map Subtype.val =
      ((Search.visitAll next (next i) (s.enter i)).map Subtype.val).bind fun t =>
        .ok (t.leave i) := by
  rw [Search.visit_of_unvisited hMark]
  cases Search.visitAll next (next i) (s.enter i) <;> rfl

theorem lt_of_mem_path (hs : Search.Consistent next s) (hPath : i ∈ s.path) :
    i < s.marks.length :=
  (List.getElem?_eq_some_iff.mp ((hs.visiting i).mpr hPath)).1

/-- On the path of a search are nodes, each once, so it is no longer than there are
nodes. -/
theorem length_path_le (hs : Search.Consistent next s) : s.path.length ≤ s.marks.length := by
  have hMarked : s.path ⊆ List.range s.marks.length := fun i hi =>
    List.mem_range.mpr (lt_of_mem_path hs hi)
  simpa using (List.subperm_of_subset hs.path_nodup hMarked).length_le

section Calls

variable (hNext : ∀ i < g.size, ∀ j ∈ next i, j < g.size)

include hNext

/-- Parts that do what visits say, one after the other, do what the visits say one after
the other. A visit leaves the path as it was, so each part begins equally deep. -/
theorem forM_does {part : Nat → Descending Unit} {depth : Nat}
    (hPart : ∀ i d, Search.Ready next g.size [i] d.search → d.search.path.length = depth →
      Does g next (part i) d ((Search.visit next i d.search).map Subtype.val))
    (hReady : Search.Ready next g.size nodes d.search) (hDepth : d.search.path.length = depth) :
    Does g next (forM nodes part) d ((Search.visitAll next nodes d.search).map Subtype.val) := by
  induction nodes generalizing d with
  | nil =>
    rw [Search.visitAll]
    exact .nothing rfl
  | cons i rest ih =>
    have hVisited := (Search.visit_visited hNext).1 i _ hReady.first
    rw [List.forM_cons, map_visitAll_cons]
    refine (hPart i d hReady.first hDepth).bind fun t hOk calls => ?_
    obtain ⟨u, hVisit, rfl⟩ := map_eq_ok_iff.mp hOk
    rw [hVisit] at hVisited
    exact ih (hReady.rest hVisited) (hVisited.path_eq ▸ hDepth)

/-- **A visit in place does what the visit by value does**, if there is room for one call
more than there are nodes that are not on the path. -/
theorem visiting_does (hReady : Search.Ready next g.size [i] d.search)
    (hRoom : d.search.path.length + room = g.size + 1) :
    Does g next (g.visiting next room i) d ((Search.visit next i d.search).map Subtype.val) := by
  induction room generalizing i d with
  | zero =>
    have hLength := length_path_le hReady.consistent
    rw [hReady.size_eq] at hLength
    omega
  | succ room ih =>
    have hCall : ∀ c ∈ [(⟨i, d.search⟩ : Search.Call)],
        Search.Ready next g.size [c.node] c.search := by simpa using hReady
    have hi : i < g.size := hReady.bound i (by simp)
    cases hMark : d.search.marks[i]? with
    | none =>
      rw [List.getElem?_eq_none_iff, hReady.size_eq] at hMark
      omega
    | some mark =>
      cases mark with
      | done =>
        rw [Search.visit_of_done hMark]
        exact .settled hCall (by rw [comesTo_visiting, hMark])
      | visiting =>
        have hPath := (hReady.consistent.visiting i).mp hMark
        rw [Search.visit_of_visiting hMark]
        refine .cycle d.search hCall ?_
        have hNodes : ∀ j ∈ d.search.path, j < g.size := fun j hj =>
          hReady.size_eq ▸ lt_of_mem_path hReady.consistent hj
        rw [comesTo_visiting, hMark]
        simp only [closing_eq hPath hNodes]
      | unvisited =>
        have hDeeper : (d.search.enter i).path.length = d.search.path.length + 1 :=
          List.length_append
        have hBeneath := forM_does hNext (d := ⟨d.search.enter i, d.calls ++ [⟨i, d.search⟩]⟩)
          (fun j e hj hDepth => ih hj (by omega)) (hReady.enter hNext hMark) hDeeper
        have hOn : (g.visiting next (room + 1) i).comesTo d =
            match Descending.comesTo (forM (next i) (g.visiting next room))
              ⟨d.search.enter i, d.calls ++ [⟨i, d.search⟩]⟩ with
            | (.ok _, t) => (.ok (), ⟨t.search.leave i, t.calls⟩)
            | (.error halt, t) => (.error halt, t) := by
          rw [comesTo_visiting, hMark]
          simp only [mapM_getElem?_nodes (hNext i hi)]
        rw [map_visit_of_unvisited hMark]
        generalize (Search.visitAll next (next i) (d.search.enter i)).map Subtype.val = answer
          at hBeneath ⊢
        cases hBeneath with
        | cycle t hMore hHalts =>
          refine .cycle t (List.forall_mem_append.mpr ⟨hCall, hMore⟩) ?_
          rw [hOn, hHalts, List.append_assoc]
        | settled hMore hEnds =>
          refine .settled (List.forall_mem_append.mpr ⟨hCall, hMore⟩) ?_
          rw [hOn, hEnds, List.append_assoc]

/-- The visits of all nodes in turn, in place, do what these visits do by value. -/
theorem sweeping_does : Does g next (g.sweeping next) (.start g.size)
    ((Search.visitAll next (List.range g.size) (.start g.size)).map Subtype.val) := by
  refine forM_does hNext ?_ (Search.start_ready fun _ => List.mem_range.mp) rfl
  intro i d hReady hDepth
  have hEmpty : d.search.path = [] := List.length_eq_zero_iff.mp hDepth
  have hi : i < g.size := hReady.bound i (by simp)
  cases hMark : d.search.marks[i]? with
  | none =>
    rw [List.getElem?_eq_none_iff, hReady.size_eq] at hMark
    omega
  | some mark =>
    cases mark with
    | done =>
      rw [Search.visit_of_done hMark]
      exact .nothing (by simp [hMark])
    | visiting =>
      have hPath := (hReady.consistent.visiting i).mp hMark
      rw [hEmpty] at hPath
      cases hPath
    | unvisited =>
      have hRoom : d.search.path.length + (g.size + 1) = g.size + 1 := by simp [hEmpty]
      refine (visiting_does hNext hReady hRoom).of_comesTo ?_
      simp [hMark]

end Calls

-- ---------------------------------------------------------------------------
-- Searches
-- ---------------------------------------------------------------------------

/-- Before a call, marks, path and order are in step with each other and with the
edges; and the path is the same after the visit, if it comes to an end. -/
structure InStep (g : Graph α) (next : Nat → List Nat) (c : Search.Call) : Prop where
  visiting    : ∀ j, c.search.marks[j]? = some .visiting ↔ j ∈ c.search.path
  path_nodup  : c.search.path.Nodup
  chained     : c.search.path.IsChain fun node dep => (dep, node) ∈ g.edges
  entered     : ∀ last ∈ c.search.path.getLast?, (c.node, last) ∈ g.edges
  done        : ∀ j, c.search.marks[j]? = some .done ↔ j ∈ c.search.order
  order_nodup : c.search.order.Nodup
  founded     : Founded (fun node dep => (dep, node) ∈ g.edges) c.search.order
  path_kept   : ∀ t, Search.visit next c.node c.search = .ok t → t.val.path = c.search.path

section Along

variable (hg : g.WellFormed) (hEdges : ∀ i j, j ∈ next i ↔ (j, i) ∈ g.edges)

include hg hEdges

theorem inStep_of_ready {c : Search.Call}
    (hReady : Search.Ready next g.size [c.node] c.search) : g.InStep next c := by
  have hNext := hg.next_lt hEdges
  have hLeads : LeadsTo next = fun node dep => (dep, node) ∈ g.edges :=
    funext fun node => funext fun dep => propext (hEdges node dep)
  have hConsistent := hReady.consistent
  refine ⟨hConsistent.visiting, hConsistent.path_nodup, hLeads ▸ hConsistent.chained,
    fun last hLast => (hEdges _ _).mp (hReady.may c.node (by simp) last hLast), hConsistent.done,
    hConsistent.order_nodup, hLeads ▸ hConsistent.founded, fun t hVisit => ?_⟩
  have hVisited := (Search.visit_visited hNext).1 _ _ hReady
  rw [hVisit] at hVisited
  exact hVisited.path_eq

/-- **Ordering in place** comes to the order by value, or to the fault that this is
refused with. -/
theorem ordering_comesTo (root : String) :
    ∃ d, (g.ordering next root).comesTo (.start g.size) =
        ((g.orderAlong next root).mapError .fault, d) ∧ ∀ c ∈ d.calls, g.InStep next c := by
  have hNext := hg.next_lt hEdges
  unfold ordering orderAlong
  cases hRoot : g.index? root with
  | none => exact ⟨_, rfl, by simp [Descent.start]⟩
  | some start =>
    have hStart := lt_size_of_name ((index?_eq_some_iff hg.distinct).mp hRoot)
    have hReady : Search.Ready next g.size [start] (.start g.size) :=
      Search.start_ready (by simpa using hStart)
    have hVisited := (Search.visit_visited hNext).1 _ _ hReady
    have hDoes : Does g next (g.visiting next (g.size + 1) start) (.start g.size)
        ((Search.visit next start (.start g.size)).map Subtype.val) :=
      visiting_does hNext hReady (Nat.zero_add (g.size + 1))
    simp only [orderFrom, searchFrom]
    cases hVisit : Search.visit next start (.start g.size) with
    | error cycle =>
      rw [hVisit] at hDoes
      cases hDoes with
      | @cycle _ more t hMore hHalts =>
        refine ⟨⟨t, more⟩, ?_, fun c hc => inStep_of_ready hg hEdges (hMore c hc)⟩
        rw [Descending.comesTo_bind, hHalts]
        rfl
    | ok t =>
      rw [hVisit] at hDoes hVisited
      cases hDoes with
      | @settled _ more hMore hEnds =>
        have hPlaced : ∀ i ∈ t.val.order, i < g.size := fun i hi => by
          have hDone := (hVisited.consistent.done i).mpr hi
          rw [← hReady.size_eq, ← hVisited.size_eq]
          exact (List.getElem?_eq_some_iff.mp hDone).1
        refine ⟨⟨t.val, more⟩, ?_, fun c hc => inStep_of_ready hg hEdges (hMore c hc)⟩
        rw [Descending.comesTo_bind, hEnds]
        simp only [Descending.comesTo_bind, Descending.comesTo_get, mapM_getElem?_nodes hPlaced]
        rfl

/-- **Sweeping in place** comes to an end if a search by value finds no cycle, and else to
the cycle that it finds. -/
theorem sweeping_comesTo :
    ∃ d, (g.sweeping next).comesTo (.start g.size) =
        (match searchCycle? g.size next with
          | none => .ok ()
          | some cycle => .error (.fault (.cycle (cycle.map g.nameAt))), d) ∧
      ∀ c ∈ d.calls, g.InStep next c := by
  have hNext := hg.next_lt hEdges
  have hDoes := sweeping_does hNext
  unfold searchCycle?
  cases hAll : Search.visitAll next (List.range g.size) (.start g.size) with
  | error cycle =>
    rw [hAll] at hDoes
    cases hDoes with
    | cycle t hMore hHalts =>
      exact ⟨_, hHalts, fun c hc => inStep_of_ready hg hEdges (hMore c hc)⟩
  | ok t =>
    rw [hAll] at hDoes
    cases hDoes with
    | settled hMore hEnds =>
      exact ⟨_, hEnds, fun c hc => inStep_of_ready hg hEdges (hMore c hc)⟩

end Along

/--
**Marks, path and order are in step at every call.** A graph that calls lead to is
searched from a root, siblings by whatever key, and from all nodes, in place. Each search
comes to what the search by value does, so what halts it is never a number without a
node, a node lost from the path, or a lack of room for one call more, within one another,
than there are nodes. And before every call that it makes, the nodes being visited are
the path, each one depended on by the one before it and the node called for by the last
one; the nodes done are the order, each one after all that it depends on; and a visit
that comes to an end leaves the path as it was.
-/
theorem calls_in_step [Dependent α] {adds : List (String × α)} (hGrows : Grows .empty adds g) :
    (∀ (κ : Type) [Ord κ] (key : Nat → κ) (root : String),
      ∃ d, (g.ordering (g.siblings key) root).comesTo (.start g.size) =
          ((g.orderAlong (g.siblings key) root).mapError .fault, d) ∧
        ∀ c ∈ d.calls, g.InStep (g.siblings key) c) ∧
    ∃ d, (g.sweeping (g.siblings id)).comesTo (.start g.size) =
        (match g.findCycle? with
          | none => .ok ()
          | some cycle => .error (.fault (.cycle cycle)), d) ∧
      ∀ c ∈ d.calls, g.InStep (g.siblings id) c := by
  have hg : g.WellFormed := (Keeps.empty.grows hGrows).wellFormed
  refine ⟨fun κ _ key root => ordering_comesTo hg (fun _ _ => mem_siblings) root, ?_⟩
  have hEdges : ∀ i j, j ∈ g.siblings id i ↔ (j, i) ∈ g.edges := fun _ _ => mem_siblings
  obtain ⟨d, hEnds, hCalls⟩ := sweeping_comesTo hg hEdges
  refine ⟨d, ?_, hCalls⟩
  rw [hEnds, findCycle?]
  cases searchCycle? g.size (g.siblings id) <;> rfl

/-- One node is done and two lead to each other when the first of these is called for once
more; of the node beside them nothing is known. -/
theorem calls_in_step_tangle : Grows .empty Tangle.adds Tangle.graph ∧
    ∃ d, (Tangle.graph.ordering (Tangle.graph.siblings id) "app").comesTo (.start 5) =
        (.error (.fault (.cycle ["lib", "tool", "lib"])), d) ∧
      d.calls.map Search.Call.node = [1, 0, 2, 3, 2] ∧
      ∀ c ∈ d.calls, Tangle.graph.InStep (Tangle.graph.siblings id) c := by
  obtain ⟨d, hEnds, hCalls⟩ := (calls_in_step Tangle.grows).1 Nat id "app"
  have hCycle : Tangle.graph.orderAlong (Tangle.graph.siblings id) "app" =
      .error (.cycle ["lib", "tool", "lib"]) := by cbv
  have hNodes : ((Tangle.graph.ordering (Tangle.graph.siblings id) "app").comesTo
      (.start 5)).2.calls.map Search.Call.node = [1, 0, 2, 3, 2] := by cbv
  have hSize : Tangle.graph.size = 5 := rfl
  rw [hCycle, hSize] at hEnds
  rw [hEnds] at hNodes
  exact ⟨Tangle.grows, d, hEnds, hNodes, hCalls⟩

end Graph

end TaskMill
