import Mathlib.Data.List.Chain
import TaskMill.Graph.Search
import TaskMill.Proofs.Founded
/-!
# TaskMill — what a depth-first search finds

The marks, the path and the order of a search under way tell one story: the
nodes marked as visiting are the path, on which each node leads to the next
one; those marked as done are the order, which is founded (`Consistent`).
Entering and leaving a node keep this, and every visit ends in one of two ways
(`Visited`):

* it **settles** the nodes it was made for: they are placed, along with nothing
  but what they lead to, and the path is as it was;
* or it answers a **cycle** of nodes that are on the path or that the visited
  nodes lead to.

## Results

* `visit_visited`    — every visit, of one node or of a list of them, settles them
  or finds a cycle.
* `searchFrom_spec`  — a search from a root orders what the root leads to, or
  answers a cycle in it.
* `searchCycle?_spec` — a search from all nodes orders all of them, or answers a
  cycle.
-/

namespace TaskMill

open Relation (ReflTransGen TransGen)

/-- From `a` a search goes on to `b`. -/
def LeadsTo (next : Nat → List Nat) (a b : Nat) : Prop := b ∈ next a

namespace Search

variable {next : Nat → List Nat} {s t : Search} {i : Nat} {nodes : List Nat}

-- ---------------------------------------------------------------------------
-- The state of a search
-- ---------------------------------------------------------------------------

/-- Marks, path and order of a search agree with each other. -/
structure Consistent (next : Nat → List Nat) (s : Search) : Prop where
  visiting    : ∀ i, s.marks[i]? = some .visiting ↔ i ∈ s.path
  done        : ∀ i, s.marks[i]? = some .done ↔ i ∈ s.order
  path_nodup  : s.path.Nodup
  order_nodup : s.order.Nodup
  chained     : s.path.IsChain (LeadsTo next)
  founded     : Founded (LeadsTo next) s.order

/-- A search may go on to `i`: the last node of its path leads there. -/
def MayEnter (next : Nat → List Nat) (s : Search) (i : Nat) : Prop :=
  ∀ a ∈ s.path.getLast?, LeadsTo next a i

theorem start_consistent (size : Nat) : Consistent next (start size) where
  visiting i := by simp [start, List.getElem?_replicate]
  done i := by simp [start, List.getElem?_replicate]
  path_nodup := .nil
  order_nodup := .nil
  chained := .nil
  founded := .nil

namespace Consistent

theorem enter (hs : Consistent next s) (hFresh : s.marks[i]? = some .unvisited)
    (hMay : MayEnter next s i) : Consistent next (s.enter i) := by
  obtain ⟨hi, -⟩ := List.getElem?_eq_some_iff.mp hFresh
  have hNotPath : i ∉ s.path := fun h => by simpa [hFresh] using (hs.visiting i).mpr h
  have hNotOrder : i ∉ s.order := fun h => by simpa [hFresh] using (hs.done i).mpr h
  constructor
  -- only the mark of `i` is another one, and `i` is neither on the path nor placed
  · intro j
    show (s.marks.set i .visiting)[j]? = some .visiting ↔ j ∈ s.path ++ [i]
    rw [List.getElem?_set]
    by_cases hij : i = j
    · simp [hij, hij ▸ hi]
    · simp [hij, hs.visiting j, Ne.symm hij]
  · intro j
    show (s.marks.set i .visiting)[j]? = some .done ↔ j ∈ s.order
    rw [List.getElem?_set]
    by_cases hij : i = j
    · simp [← hij, hi, hNotOrder]
    · simp [hij, hs.done j]
  · exact List.nodup_append.mpr ⟨hs.path_nodup, by simp, by
      intro a ha b hb hab
      obtain rfl : b = i := by simpa using hb
      exact hNotPath (hab ▸ ha)⟩
  · exact hs.order_nodup
  · refine List.isChain_append.mpr ⟨hs.chained, .singleton i, ?_⟩
    intro a ha b hb
    obtain rfl : i = b := by simpa using hb
    exact hMay a ha
  · exact hs.founded

theorem leave {path : List Nat} (ht : Consistent next t) (hPath : t.path = path ++ [i])
    (hNext : ∀ j ∈ next i, j ∈ t.order) : Consistent next (t.leave i) := by
  have hVisiting : t.marks[i]? = some .visiting := (ht.visiting i).mpr (by simp [hPath])
  obtain ⟨hi, -⟩ := List.getElem?_eq_some_iff.mp hVisiting
  have hNotOrder : i ∉ t.order := fun h => by simpa [hVisiting] using (ht.done i).mpr h
  have hDrop : t.path.dropLast = path := by rw [hPath, List.dropLast_concat]
  have hNodup := ht.path_nodup
  rw [hPath, List.nodup_append] at hNodup
  have hNotPath : i ∉ path := fun h => hNodup.2.2 i h i (by simp) rfl
  constructor
  -- `i` is the last node of the path, and there only
  · intro j
    show (t.marks.set i .done)[j]? = some .visiting ↔ j ∈ t.path.dropLast
    rw [List.getElem?_set, hDrop]
    by_cases hij : i = j
    · simp [← hij, hi, hNotPath]
    · simp [hij, ht.visiting j, hPath, Ne.symm hij]
  · intro j
    show (t.marks.set i .done)[j]? = some .done ↔ j ∈ t.order ++ [i]
    rw [List.getElem?_set]
    by_cases hij : i = j
    · simp [hij, hij ▸ hi]
    · simp [hij, ht.done j, Ne.symm hij]
  · show t.path.dropLast.Nodup
    exact hDrop ▸ hNodup.1
  · exact List.nodup_append.mpr ⟨ht.order_nodup, by simp, by
      intro a ha b hb hab
      obtain rfl : b = i := by simpa using hb
      exact hNotOrder (hab ▸ ha)⟩
  · show t.path.dropLast.IsChain (LeadsTo next)
    have hChain := ht.chained
    rw [hPath] at hChain
    exact hDrop ▸ hChain.left_of_append
  · exact ht.founded.concat hNext

/-- The path closed at one of its nodes: from that node on, and back to it. -/
theorem exists_closedAt (hPath : i ∈ s.path) :
    ∃ before after, s.path = before ++ i :: after ∧ s.closedAt i = i :: after ++ [i] := by
  obtain ⟨before, after, hEq, hNot⟩ := List.eq_append_cons_of_mem hPath
  refine ⟨before, after, hEq, ?_⟩
  have hSkip : ∀ a ∈ before, decide (a ≠ i) = true := by
    intro a ha
    have hNe : a ≠ i := by
      rintro rfl
      exact hNot ha
    simpa using hNe
  rw [closedAt, hEq, List.dropWhile_append_of_pos hSkip]
  simp

/-- Going on to a node of the path closes a cycle. -/
theorem isCycle_closedAt (hs : Consistent next s) (hPath : i ∈ s.path)
    (hMay : MayEnter next s i) : IsCycle (LeadsTo next) (s.closedAt i) := by
  obtain ⟨before, after, hEq, hClosed⟩ := exists_closedAt hPath
  have hSuffix : i :: after <:+ s.path := ⟨before, hEq.symm⟩
  have hLast : s.path.getLast? = (i :: after).getLast? := by
    rw [hEq, List.getLast?_append]
    simp [List.getLast?_cons]
  rw [hClosed]
  constructor
  · simp
  · rw [List.getLast?_concat, List.cons_append, List.head?_cons]
  · rw [List.dropLast_concat]
    exact hs.path_nodup.sublist hSuffix.sublist
  · refine List.isChain_append.mpr ⟨hs.chained.suffix hSuffix, .singleton i, ?_⟩
    intro a ha b hb
    obtain rfl : i = b := by simpa using hb
    exact hMay a (hLast ▸ ha)

/-- Going on to a node of the path leaves the path for no other node. -/
theorem mem_path_of_mem_closedAt (hPath : i ∈ s.path) {x : Nat} (hx : x ∈ s.closedAt i) :
    x ∈ s.path := by
  obtain ⟨before, after, hEq, hClosed⟩ := exists_closedAt hPath
  rw [hClosed] at hx
  rw [hEq]
  simp only [List.cons_append, List.mem_cons, List.mem_append] at hx ⊢
  tauto

end Consistent

-- ---------------------------------------------------------------------------
-- What a visit comes to
-- ---------------------------------------------------------------------------

/-- What a search has become after a visit of `nodes` that met no cycle. -/
structure Settled (next : Nat → List Nat) (nodes : List Nat) (s t : Search) : Prop where
  consistent : Consistent next t
  size_eq    : t.marks.length = s.marks.length
  path_eq    : t.path = s.path
  kept       : ∀ x ∈ s.order, x ∈ t.order
  placed     : ∀ i ∈ nodes, i ∈ t.order
  led        : ∀ x ∈ t.order, x ∈ s.order ∨ ∃ i ∈ nodes, ReflTransGen (LeadsTo next) i x

/-- The two ways in which a visit of `nodes` from `s` can end. -/
def Visited (next : Nat → List Nat) (nodes : List Nat) (s : Search) :
    Except (List Nat) s.After → Prop
  | .ok t => Settled next nodes s t.val
  | .error cycle => IsCycle (LeadsTo next) cycle ∧
      ∀ x ∈ cycle, x ∈ s.path ∨ ∃ i ∈ nodes, ReflTransGen (LeadsTo next) i x

/-- A visit that has nothing left to place changes nothing. -/
theorem Consistent.settled (hs : Consistent next s) (hPlaced : ∀ i ∈ nodes, i ∈ s.order) :
    Settled next nodes s s :=
  ⟨hs, rfl, rfl, fun _ hx => hx, hPlaced, fun _ hx => .inl hx⟩

/-- Leaving a node whose followers are settled settles the node. -/
theorem Settled.leave (hSettled : Settled next (next i) (s.enter i) t) :
    Settled next [i] s (t.leave i) where
  consistent := hSettled.consistent.leave hSettled.path_eq hSettled.placed
  size_eq := by simpa [Search.leave, Search.enter] using hSettled.size_eq
  path_eq := by
    show t.path.dropLast = s.path
    rw [hSettled.path_eq]
    exact List.dropLast_concat
  kept x hx := List.mem_append_left _ (hSettled.kept x hx)
  placed j hj := by
    obtain rfl : j = i := by simpa using hj
    exact List.mem_append_right _ (by simp)
  led x hx := by
    rcases List.mem_append.mp hx with hx | hx
    · rcases hSettled.led x hx with hOld | ⟨j, hj, hjx⟩
      · exact .inl hOld
      · exact .inr ⟨i, by simp, .head hj hjx⟩
    · obtain rfl : x = i := by simpa using hx
      exact .inr ⟨x, by simp, .refl⟩

/-- One visit after another settles what both were made for. -/
theorem Settled.trans {u : Search} (hFirst : Settled next [i] s t)
    (hRest : Settled next nodes t u) : Settled next (i :: nodes) s u where
  consistent := hRest.consistent
  size_eq := hRest.size_eq.trans hFirst.size_eq
  path_eq := hRest.path_eq.trans hFirst.path_eq
  kept x hx := hRest.kept x (hFirst.kept x hx)
  placed j hj := by
    rcases List.mem_cons.mp hj with rfl | hj
    · exact hRest.kept j (hFirst.placed j (by simp))
    · exact hRest.placed j hj
  led x hx := by
    rcases hRest.led x hx with hx | ⟨j, hj, hjx⟩
    · rcases hFirst.led x hx with hx | ⟨j, hj, hjx⟩
      · exact .inl hx
      · exact .inr ⟨j, List.mem_cons.mpr (.inl (by simpa using hj)), hjx⟩
    · exact .inr ⟨j, List.mem_cons_of_mem _ hj, hjx⟩

-- ---------------------------------------------------------------------------
-- Visits
-- ---------------------------------------------------------------------------

/-- From a consistent search of `size` nodes, `nodes` may be visited. -/
structure Ready (next : Nat → List Nat) (size : Nat) (nodes : List Nat) (s : Search) : Prop where
  consistent : Consistent next s
  size_eq    : s.marks.length = size
  bound      : ∀ i ∈ nodes, i < size
  may        : ∀ i ∈ nodes, MayEnter next s i

/-- At the start, any nodes may be visited. -/
theorem start_ready {size : Nat} (hBound : ∀ i ∈ nodes, i < size) :
    Ready next size nodes (start size) where
  consistent := start_consistent size
  size_eq := by simp [start]
  bound := hBound
  may := by simp [MayEnter, start]

/-- Just inside a node, what it leads to may be visited. -/
theorem Ready.enter {size : Nat} (hNext : ∀ i < size, ∀ j ∈ next i, j < size)
    (hReady : Ready next size [i] s) (hFresh : s.marks[i]? = some .unvisited) :
    Ready next size (next i) (s.enter i) where
  consistent := hReady.consistent.enter hFresh (hReady.may i (by simp))
  size_eq := by simpa [Search.enter] using hReady.size_eq
  bound := hNext i (hReady.bound i (by simp))
  may j hj a ha := by
    have hLast : (s.enter i).path.getLast? = some i := by simp [Search.enter]
    obtain rfl : i = a := by simpa [hLast] using ha
    exact hj

/-- After the first of some nodes is settled, the others may be visited. -/
theorem Ready.rest {size : Nat} (hReady : Ready next size (i :: nodes) s)
    (hFirst : Settled next [i] s t) : Ready next size nodes t where
  consistent := hFirst.consistent
  size_eq := hFirst.size_eq.trans hReady.size_eq
  bound j hj := hReady.bound j (List.mem_cons_of_mem _ hj)
  may j hj := by
    unfold MayEnter
    rw [hFirst.path_eq]
    exact hReady.may j (List.mem_cons_of_mem _ hj)

theorem Ready.first {size : Nat} (hReady : Ready next size (i :: nodes) s) :
    Ready next size [i] s where
  consistent := hReady.consistent
  size_eq := hReady.size_eq
  bound j hj := hReady.bound j (List.mem_cons.mpr (.inl (by simpa using hj)))
  may j hj := hReady.may j (List.mem_cons.mpr (.inl (by simpa using hj)))

/-- Visiting a fresh node visits what it leads to and then places it. -/
theorem visit_of_unvisited (h : s.marks[i]? = some .unvisited) :
    visit next i s = match visitAll next (next i) (s.enter i) with
      | .error cycle => .error cycle
      | .ok t => .ok ⟨t.val.leave i, Nat.le_trans (fresh_leave_le t.val i)
          (Nat.le_trans t.property (Nat.le_of_lt (fresh_enter_lt h)))⟩ := by
  rw [visit]
  split
  case h_1 => cases visitAll next (next i) (s.enter i) <;> rfl
  all_goals simp_all

theorem visit_of_visiting (h : s.marks[i]? = some .visiting) :
    visit next i s = .error (s.closedAt i) := by
  rw [visit]
  split
  case h_2 => rfl
  all_goals simp_all

theorem visit_of_done (h : s.marks[i]? = some .done) :
    visit next i s = .ok ⟨s, Nat.le_refl _⟩ := by
  rw [visit]
  split
  case h_3 => rfl
  all_goals simp_all

theorem visit_of_none (h : s.marks[i]? = none) : visit next i s = .ok ⟨s, Nat.le_refl _⟩ := by
  rw [visit]
  split
  case h_4 => rfl
  all_goals simp_all

/-- **Every visit settles its nodes or finds a cycle.** One case for each way
in which a visit goes on; the hypotheses of the induction are about the nodes
one step further. -/
theorem visit_visited {size : Nat} (hNext : ∀ i < size, ∀ j ∈ next i, j < size) :
    (∀ i s, Ready next size [i] s → Visited next [i] s (visit next i s)) ∧
    ∀ nodes s, Ready next size nodes s → Visited next nodes s (visitAll next nodes s) := by
  apply visit.mutual_induct next
    (fun i s => Ready next size [i] s → Visited next [i] s (visit next i s))
    (fun nodes s => Ready next size nodes s → Visited next nodes s (visitAll next nodes s))
  case case1 =>
    -- a cycle beneath a fresh node
    intro i s hFresh cycle hAll ih hReady
    have hVisited := ih (hReady.enter hNext hFresh)
    rw [hAll] at hVisited
    rw [visit_of_unvisited hFresh, hAll]
    refine ⟨hVisited.1, fun x hx => ?_⟩
    rcases hVisited.2 x hx with hx | ⟨j, hj, hjx⟩
    · rcases List.mem_append.mp hx with hx | hx
      · exact .inl hx
      · obtain rfl : x = i := by simpa using hx
        exact .inr ⟨x, by simp, .refl⟩
    · exact .inr ⟨i, by simp, .head hj hjx⟩
  case case2 =>
    intro i s hFresh t hAll ih hReady
    have hVisited := ih (hReady.enter hNext hFresh)
    rw [hAll] at hVisited
    rw [visit_of_unvisited hFresh, hAll]
    exact Settled.leave hVisited
  case case3 =>
    -- the node is on the path
    intro i s hVisiting hReady
    have hPath := (hReady.consistent.visiting i).mp hVisiting
    rw [visit_of_visiting hVisiting]
    exact ⟨hReady.consistent.isCycle_closedAt hPath (hReady.may i (by simp)),
      fun x hx => .inl (Consistent.mem_path_of_mem_closedAt hPath hx)⟩
  case case4 =>
    intro i s hDone hReady
    rw [visit_of_done hDone]
    exact hReady.consistent.settled (by simpa using (hReady.consistent.done i).mp hDone)
  case case5 =>
    -- no node has that number
    intro i s hNone hReady
    have hBound := hReady.bound i (by simp)
    rw [List.getElem?_eq_none_iff, hReady.size_eq] at hNone
    omega
  case case6 =>
    intro s hReady
    rw [visitAll]
    exact hReady.consistent.settled (by simp)
  case case7 =>
    intro s i rest cycle hVisit ih hReady
    have hVisited := ih hReady.first
    rw [hVisit] at hVisited
    rw [visitAll, hVisit]
    refine ⟨hVisited.1, fun x hx => (hVisited.2 x hx).imp_right ?_⟩
    rintro ⟨j, hj, hjx⟩
    exact ⟨j, List.mem_cons.mpr (.inl (by simpa using hj)), hjx⟩
  case case8 =>
    -- the path of the later visits is the one before the first
    intro s i rest t hVisit cycle hAll ih ihRest hReady
    have hFirst := ih hReady.first
    rw [hVisit] at hFirst
    have hVisited := ihRest (hReady.rest hFirst)
    rw [hAll] at hVisited
    rw [visitAll, hVisit]
    simp only [hAll]
    refine ⟨hVisited.1, fun x hx => (hVisited.2 x hx).imp (hFirst.path_eq ▸ ·) ?_⟩
    rintro ⟨j, hj, hjx⟩
    exact ⟨j, List.mem_cons_of_mem _ hj, hjx⟩
  case case9 =>
    intro s i rest t hVisit u hAll ih ihRest hReady
    have hFirst := ih hReady.first
    rw [hVisit] at hFirst
    have hRest := ihRest (hReady.rest hFirst)
    rw [hAll] at hRest
    rw [visitAll, hVisit]
    simp only [hAll]
    exact hFirst.trans hRest

end Search

-- ---------------------------------------------------------------------------
-- Searches
-- ---------------------------------------------------------------------------

/-- **A search from a root orders or refutes.** Either the order is founded and
holds, once each, the nodes that the root leads to, or the answer is a cycle
among them. -/
theorem searchFrom_spec {next : Nat → List Nat} {size root : Nat} (hRoot : root < size)
    (hNext : ∀ i < size, ∀ j ∈ next i, j < size) :
    match searchFrom size next root with
    | .ok order => order.Nodup ∧ Founded (LeadsTo next) order ∧
        ∀ x, x ∈ order ↔ ReflTransGen (LeadsTo next) root x
    | .error cycle => IsCycle (LeadsTo next) cycle ∧
        ∀ x ∈ cycle, ReflTransGen (LeadsTo next) root x := by
  have hVisited := (Search.visit_visited hNext).1 root _ (Search.start_ready (by simpa using hRoot))
  rw [searchFrom]
  cases hVisit : Search.visit next root (.start size) with
  | error cycle =>
    rw [hVisit] at hVisited
    refine ⟨hVisited.1, fun x hx => ?_⟩
    simpa [Search.start] using hVisited.2 x hx
  | ok t =>
    rw [hVisit] at hVisited
    have hConsistent := hVisited.consistent
    refine ⟨hConsistent.order_nodup, hConsistent.founded, fun x => ⟨fun hx => ?_, fun hx => ?_⟩⟩
    · simpa [Search.start] using hVisited.led x hx
    · -- a founded order that holds the root holds what the root leads to
      exact hConsistent.founded.closed (hVisited.placed root (by simp)) hx

/-- What a node leads to, over any number of steps, is a node. -/
theorem lt_of_reflTransGen {next : Nat → List Nat} {size i x : Nat}
    (hNext : ∀ i < size, ∀ j ∈ next i, j < size) (hi : i < size)
    (h : ReflTransGen (LeadsTo next) i x) : x < size := by
  induction h with
  | refl => exact hi
  | tail _ hStep ih => exact hNext _ ih _ hStep

/-- **A search from all nodes orders or refutes.** Either there is an order of
all nodes, or the answer is a cycle among them. -/
theorem searchCycle?_spec {next : Nat → List Nat} {size : Nat}
    (hNext : ∀ i < size, ∀ j ∈ next i, j < size) :
    match searchCycle? size next with
    | none => ∃ order : List Nat, order.Nodup ∧ Founded (LeadsTo next) order ∧
        ∀ i, i ∈ order ↔ i < size
    | some cycle => IsCycle (LeadsTo next) cycle ∧ ∀ x ∈ cycle, x < size := by
  have hReady : Search.Ready next size (List.range size) (.start size) :=
    Search.start_ready fun _ => List.mem_range.mp
  have hVisited := (Search.visit_visited hNext).2 _ _ hReady
  -- whatever is visited is led to by one of the nodes
  have hLed : ∀ x, (∃ i ∈ List.range size, ReflTransGen (LeadsTo next) i x) → x < size := by
    rintro x ⟨i, hi, hix⟩
    exact lt_of_reflTransGen hNext (List.mem_range.mp hi) hix
  rw [searchCycle?]
  cases hVisit : Search.visitAll next (List.range size) (.start size) with
  | error cycle =>
    rw [hVisit] at hVisited
    obtain ⟨hCycle, hFrom⟩ := hVisited
    refine ⟨hCycle, fun x hx => hLed x ?_⟩
    have hMem := hFrom x hx
    rwa [Search.start, or_iff_right List.not_mem_nil] at hMem
  | ok t =>
    rw [hVisit] at hVisited
    have hConsistent := hVisited.consistent
    refine ⟨t.val.order, hConsistent.order_nodup, hConsistent.founded,
      fun i => ⟨fun hi => ?_, fun hi => ?_⟩⟩
    · have hMem := hVisited.led i hi
      rw [Search.start, or_iff_right List.not_mem_nil] at hMem
      exact hLed i hMem
    · exact hVisited.placed i (List.mem_range.mpr hi)

end TaskMill
