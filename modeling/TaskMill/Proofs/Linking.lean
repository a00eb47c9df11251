import TaskMill.Proofs.Ordering
/-!
# TaskMill — linking and checking agree

A graph is linked in place: its declarations are gone through in order, each giving
an edge to be or a pair that is missing, and only when all have been looked at are
the edges put in, one by one (`linking`). A link that is refused has therefore
changed nothing, whichever of the declarations dangles.

A check goes through the declarations by itself. Both find the same pairs, in node
order and then in declared order, with repetitions: the fault that a link is refused
with is the first one that a check of the same graph finds, and a graph that has been
linked can only be found to have a cycle.

## Results

* `linking_run` — what linking in place leaves.
* `link_linked` — a second link changes nothing.
* `link_agrees_with_check` — linking and checking, on every graph.
-/

namespace TaskMill.Graph

variable {α : Type} {g linked : Graph α}

-- ---------------------------------------------------------------------------
-- In place
-- ---------------------------------------------------------------------------

/-- One declaration looked at: a pair that is missing, or an edge to be. -/
def sortOut (g : Graph α) (found : List (String × String) × List (Nat × Nat))
    (declaration : Nat × String × String) : List (String × String) × List (Nat × Nat) :=
  match g.index? declaration.2.2 with
  | some dep => (found.1, found.2 ++ [(dep, declaration.1)])
  | none => (found.1 ++ [declaration.2], found.2)

theorem foldl_sortOut (declarations : List (Nat × String × String))
    (missing : List (String × String)) (edges : List (Nat × Nat)) :
    declarations.foldl (sortOut g) (missing, edges) =
      (missing ++ declarations.filterMap (fun (_, task, dep) =>
          if (g.index? dep).isNone then some (task, dep) else none),
        edges ++ declarations.filterMap fun (i, _, dep) => (g.index? dep).map (·, i)) := by
  induction declarations generalizing missing edges with
  | nil => simp
  | cons declaration rest ih =>
    obtain ⟨i, task, dep⟩ := declaration
    rw [List.foldl_cons, sortOut]
    cases hIndex : g.index? dep with
    | none => simp [ih, hIndex]
    | some d => simp [ih, hIndex]

/-- Puts an edge into a graph. -/
def putEdge (edge : Nat × Nat) : ExceptT GraphFault (StateM (Graph α)) Unit :=
  modify fun g => { g with edges := insertEdge g.edges edge }

theorem run_forM_putEdge (edges : List (Nat × Nat)) (g : Graph α) :
    (edges.forM putEdge).run.run g =
      (.ok (), { g with edges := edges.foldl insertEdge g.edges }) := by
  induction edges generalizing g with
  | nil => rfl
  | cons edge rest ih => exact ih { g with edges := insertEdge g.edges edge }

variable [Dependent α]

/-- Links a graph in place. What is put in before a fault would stay. -/
def linking : ExceptT GraphFault (StateM (Graph α)) Unit := do
  let g ← get
  let found := g.declarations.foldl (sortOut g) ([], [])
  if found.1.isEmpty then found.2.forM putEdge
  else throw (.missing found.1)

/-- **What linking in place leaves**: the linked graph, or the graph as it was. -/
theorem linking_run (g : Graph α) :
    linking.run.run g = match g.link with
      | .ok linked => (.ok (), linked)
      | .error fault => (.error fault, g) := by
  have hFound : g.declarations.foldl (sortOut g) ([], []) = (g.unresolved, g.declaredEdges) := by
    simp [foldl_sortOut, unresolved, declaredEdges]
  show (if (g.declarations.foldl (sortOut g) ([], [])).1.isEmpty
    then (g.declarations.foldl (sortOut g) ([], [])).2.forM putEdge
    else throw (.missing (g.declarations.foldl (sortOut g) ([], [])).1) :
      ExceptT GraphFault (StateM (Graph α)) Unit).run.run g = _
  rw [hFound, link]
  by_cases hEmpty : g.unresolved.isEmpty = true
  · rw [if_pos hEmpty, if_pos hEmpty]
    exact run_forM_putEdge g.declaredEdges g
  · rw [if_neg hEmpty, if_neg hEmpty]
    rfl

-- ---------------------------------------------------------------------------
-- Once more
-- ---------------------------------------------------------------------------

omit [Dependent α] in
theorem foldl_insertEdge_of_subset {new old : List (Nat × Nat)} (hOld : ∀ e ∈ new, e ∈ old) :
    new.foldl insertEdge old = old := by
  induction new with
  | nil => rfl
  | cons edge rest ih =>
    rw [List.foldl_cons, insertEdge, if_pos (hOld edge (by simp))]
    exact ih fun e he => hOld e (List.mem_cons_of_mem _ he)

/-- **A second link changes nothing.** -/
theorem link_linked (hLink : g.link = .ok linked) : linked.link = .ok linked := by
  obtain ⟨-, hNodes, hMem⟩ := linked_of_link hLink
  have hResolved : linked.unresolved = [] := by
    rw [unresolved_eq_dangling, dangling_of_link hLink]
  have hDeclared : linked.declaredEdges = g.declaredEdges := by
    unfold declaredEdges declarations index?
    rw [hNodes]
  have hKept : linked.declaredEdges.foldl insertEdge linked.edges = linked.edges := by
    refine foldl_insertEdge_of_subset fun e he => (hMem e).mpr (.inr ?_)
    rwa [← hDeclared]
  rw [link, hResolved, hKept]
  rfl

-- ---------------------------------------------------------------------------
-- What dangles
-- ---------------------------------------------------------------------------

theorem dangling_eq_nil_iff : g.dangling = [] ↔
    ∀ node ∈ g.nodes, ∀ dep ∈ dependencies node.data, g.contains dep = true := by
  simp [dangling, List.flatMap_eq_nil_iff, List.filter_eq_nil_iff]

theorem link_eq_error_iff : (∃ fault, g.link = .error fault) ↔
    ∃ node ∈ g.nodes, ∃ dep ∈ dependencies node.data, g.contains dep = false := by
  have hRefused : (∃ fault, g.link = .error fault) ↔ ¬ ∃ linked, g.link = .ok linked := by
    cases g.link <;> simp
  rw [hRefused, exists_link_iff, unresolved_eq_dangling, dangling_eq_nil_iff]
  simp

/--
**Linking and checking agree.** A link is refused exactly if some node lists a
dependency that has no node. Then the graph is left as it was, and the fault lists
every such pair, in node order and then in declared order, with repetitions; it is
the first thing that a check of the graph finds. A link that is not refused changes
nothing if it is made once more, and a check of what it leaves finds nothing missing,
and nothing at all exactly if the search finds no cycle.
-/
theorem link_agrees_with_check (g : Graph α) :
    ((∃ fault, g.link = .error fault) ↔
      ∃ node ∈ g.nodes, ∃ dep ∈ dependencies node.data, dep ∉ g.nodes.map Node.name) ∧
    match g.link with
    | .error fault =>
      linking.run.run g = (.error fault, g) ∧
      fault = .missing (g.nodes.flatMap fun node =>
        ((dependencies node.data).filter fun dep => dep ∉ g.nodes.map Node.name).map
          fun dep => (node.name, dep)) ∧
      g.faults.head? = some fault ∧ g.check = .error fault
    | .ok linked =>
      linking.run.run g = (.ok (), linked) ∧ linked.link = .ok linked ∧
      linking.run.run linked = (.ok (), linked) ∧
      (∀ pairs, .missing pairs ∉ linked.faults) ∧
      (linked.check = .ok () ↔ linked.findCycle? = none) := by
  have hContains : ∀ dep, (!g.contains dep) = decide (dep ∉ g.nodes.map Node.name) := by
    intro dep
    rw [Bool.eq_iff_iff, Bool.not_eq_true', contains_eq_false_iff, decide_eq_true_iff]
  refine ⟨?_, ?_⟩
  · simp only [link_eq_error_iff, contains_eq_false_iff]
  have hRun := linking_run g
  cases hLink : g.link with
  | error fault =>
    rw [hLink] at hRun
    obtain ⟨rfl, hNe⟩ := refused_of_link hLink
    rw [unresolved_eq_dangling] at hNe ⊢
    have hFaults :
        g.faults = .missing g.dangling :: (g.findCycle?.map GraphFault.cycle).toList := by
      rw [faults, if_neg (by simpa using hNe)]
      rfl
    refine ⟨?_, ?_, ?_, ?_⟩
    · rw [hRun, unresolved_eq_dangling]
    · simp only [dangling, hContains]
    · rw [hFaults, List.head?_cons]
    · rw [check, hFaults]
  | ok linked =>
    rw [hLink] at hRun
    have hDangling := dangling_of_link hLink
    have hAgain := link_linked hLink
    refine ⟨hRun, hAgain, ?_, ?_, ?_⟩
    · rw [linking_run, hAgain]
    · intro pairs
      simp [faults, hDangling]
    · rw [check_of_dangling hDangling]
      cases linked.findCycle? <;> simp

end TaskMill.Graph
