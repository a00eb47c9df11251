/-!
# TaskMill — depth-first search

A search over numbered nodes that puts every node after all it leads to, or
finds a cycle. `next i` lists the nodes that node `i` leads to, in the order in
which they are to be visited.

A node is *unvisited* until the search enters it, *visiting* while the search
is inside it, and *done* once it has been placed. Entering a node that is being
visited closes a cycle. The search ends because it can enter a node only once:
`fresh` counts the unvisited nodes, it falls with every node entered and no
step ever raises it.
-/

namespace TaskMill

/-- Where a node stands in a search. -/
inductive Mark where
  | unvisited
  /-- On the current path; reaching it again closes a cycle. -/
  | visiting
  | done
  deriving DecidableEq, Inhabited

/-- A search under way. -/
structure Search where
  /-- The mark of each node. -/
  marks : List Mark
  /-- The nodes the search is inside of, the first one entered first. -/
  path : List Nat
  /-- The nodes placed so far, in order. -/
  order : List Nat
  deriving DecidableEq, Inhabited

namespace Search

/-- The search of `size` nodes before its first step. -/
def start (size : Nat) : Search :=
  ⟨List.replicate size .unvisited, [], []⟩

/-- How many nodes have not been entered. -/
def fresh (s : Search) : Nat := s.marks.count .unvisited

/-- The search just inside node `i`. -/
def enter (s : Search) (i : Nat) : Search :=
  { s with marks := s.marks.set i .visiting, path := s.path ++ [i] }

/-- The search just after node `i`, which is placed last. -/
def leave (s : Search) (i : Nat) : Search :=
  { marks := s.marks.set i .done, path := s.path.dropLast, order := s.order ++ [i] }

/-- The cycle that reaching node `i` again closes: the path from `i` on, and
`i`. -/
def closedAt (s : Search) (i : Nat) : List Nat :=
  s.path.dropWhile (· ≠ i) ++ [i]

/-- Entering a node leaves fewer of them to enter. -/
theorem fresh_enter_lt {s : Search} {i : Nat} (h : s.marks[i]? = some .unvisited) :
    (s.enter i).fresh < s.fresh := by
  obtain ⟨hi, hm⟩ := List.getElem?_eq_some_iff.1 h
  have hPos : 0 < s.marks.count .unvisited :=
    List.count_pos_iff.2 (hm ▸ List.getElem_mem hi)
  have hSet := List.count_set (a := Mark.visiting) (b := Mark.unvisited) hi
  rw [hm, if_pos (show (Mark.unvisited == Mark.unvisited) = true by decide),
    if_neg (show ¬ (Mark.visiting == Mark.unvisited) = true by decide)] at hSet
  show (s.marks.set i .visiting).count .unvisited < s.marks.count .unvisited
  omega

/-- Leaving a node leaves no more of them to enter. -/
theorem fresh_leave_le (s : Search) (i : Nat) : (s.leave i).fresh ≤ s.fresh := by
  show (s.marks.set i .done).count .unvisited ≤ s.marks.count .unvisited
  rcases Nat.lt_or_ge i s.marks.length with hi | hi
  · have hSet := List.count_set (a := Mark.done) (b := Mark.unvisited) hi
    rw [if_neg (show ¬ (Mark.done == Mark.unvisited) = true by decide)] at hSet
    omega
  · exact Nat.le_of_eq (by rw [List.set_eq_of_length_le hi])

/-- A search in which no more nodes are unvisited than in `s`. -/
abbrev After (s : Search) : Type := { t : Search // t.fresh ≤ s.fresh }

mutual

/-- Visits node `i` and all it leads to, and places `i` after them; a node that
is done stays where it is. Fails with a cycle. -/
def visit (next : Nat → List Nat) (i : Nat) (s : Search) : Except (List Nat) s.After :=
  match h : s.marks[i]? with
  | some .unvisited =>
    match visitAll next (next i) (s.enter i) with
    | .error cycle => .error cycle
    | .ok t => .ok ⟨t.val.leave i,
        Nat.le_trans (fresh_leave_le t.val i)
          (Nat.le_trans t.property (Nat.le_of_lt (fresh_enter_lt h)))⟩
  | some .visiting => .error (s.closedAt i)
  | some .done => .ok ⟨s, Nat.le_refl _⟩
  | none => .ok ⟨s, Nat.le_refl _⟩
termination_by (s.fresh, 0)
decreasing_by exact .left _ _ (fresh_enter_lt h)

/-- Visits nodes one after the other. -/
def visitAll (next : Nat → List Nat) (nodes : List Nat) (s : Search) : Except (List Nat) s.After :=
  match nodes with
  | [] => .ok ⟨s, Nat.le_refl _⟩
  | i :: rest =>
    match visit next i s with
    | .error cycle => .error cycle
    | .ok t =>
      match visitAll next rest t.val with
      | .error cycle => .error cycle
      | .ok u => .ok ⟨u.val, Nat.le_trans u.property t.property⟩
termination_by (s.fresh, nodes.length + 1)
decreasing_by
  · exact .right _ (Nat.succ_pos _)
  · rcases Nat.lt_or_eq_of_le t.property with h | h
    · exact .left _ _ h
    · rw [h]; exact .right _ (by simp)

end

end Search

/-- All nodes that `root` leads to, each after those it leads to itself, with
`root` last; or a cycle. -/
def searchFrom (size : Nat) (next : Nat → List Nat) (root : Nat) : Except (List Nat) (List Nat) :=
  (Search.visit next root (.start size)).map (·.val.order)

/-- A cycle among `size` nodes, found by visiting each of them in turn. -/
def searchCycle? (size : Nat) (next : Nat → List Nat) : Option (List Nat) :=
  match Search.visitAll next (List.range size) (.start size) with
  | .error cycle => some cycle
  | .ok _ => none

end TaskMill
