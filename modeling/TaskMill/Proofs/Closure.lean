import Mathlib.Data.List.Nodup
import Mathlib.Logic.Relation
import TaskMill.Graph.Closure
/-!
# TaskMill — what gathering a closure finds

Gathering works off an agenda of names. At every step (`Gathering`)

* the names asked for and those on the agenda are ones that the root depends
  on, over any number of steps;
* what a name asked for depends on has been asked for too, or is on the agenda;
* the new nodes are those of the names asked for that the catalogue knows and
  the graph did not hold before, in the order in which they were asked for.

When the agenda is empty, the names asked for are the **closure** of the root
(`Gathering.mem_asked_iff`).
-/

namespace TaskMill.Graph

open Relation (ReflTransGen)

variable {α : Type}

-- ---------------------------------------------------------------------------
-- Nodes and their numbers
-- ---------------------------------------------------------------------------

theorem contains_iff {g : Graph α} {name : String} :
    g.contains name = true ↔ name ∈ g.nodes.map Node.name := by
  simp [contains]

theorem contains_eq_false_iff {g : Graph α} {name : String} :
    g.contains name = false ↔ name ∉ g.nodes.map Node.name := by
  rw [← contains_iff, Bool.not_eq_true]

theorem index?_eq_none_iff {g : Graph α} {name : String} :
    g.index? name = none ↔ name ∉ g.nodes.map Node.name := by
  simp [index?, List.findIdx?_eq_none_iff]

/-- In a graph of distinct names, the number of a name is that of its node. -/
theorem index?_eq_some_iff {g : Graph α} (hDistinct : (g.nodes.map Node.name).Nodup)
    {name : String} {i : Nat} :
    g.index? name = some i ↔ (g.nodes.map Node.name)[i]? = some name := by
  rw [index?, List.findIdx?_eq_some_iff_getElem]
  constructor
  · rintro ⟨hi, hName, -⟩
    simp only [List.getElem?_map, List.getElem?_eq_getElem hi, Option.map_some]
    simpa using hName
  · intro h
    obtain ⟨hi, hName⟩ := List.getElem?_eq_some_iff.mp h
    have hi' : i < g.nodes.length := by simpa using hi
    refine ⟨hi', by simpa using hName, fun j hji hj => ?_⟩
    -- an earlier node of that name would be the same one
    have hj' : j < (g.nodes.map Node.name).length := by simpa using Nat.lt_trans hji hi'
    have hEq : (g.nodes.map Node.name)[j] = (g.nodes.map Node.name)[i] := by
      rw [hName]
      simpa using hj
    have := (List.Nodup.getElem_inj_iff hDistinct).mp hEq
    omega

-- ---------------------------------------------------------------------------
-- New nodes
-- ---------------------------------------------------------------------------

/-- The nodes of names that a catalogue knows and a graph does not hold. -/
def newNodes (g : Graph α) (catalogue : List (String × α)) (names : List String) :
    List (Node α) :=
  (names.filter fun name => !g.contains name).filterMap fun name =>
    (catalogue.lookup name).map (⟨name, ·⟩)

variable {g : Graph α} {catalogue : List (String × α)} {root : String}

theorem mem_newNodes {names : List String} {node : Node α} :
    node ∈ newNodes g catalogue names ↔ node.name ∈ names ∧ g.contains node.name = false ∧
      catalogue.lookup node.name = some node.data := by
  simp only [newNodes, List.mem_filterMap, List.mem_filter, Option.map_eq_some_iff]
  constructor
  · rintro ⟨name, ⟨hMem, hNew⟩, data, hLookup, rfl⟩
    exact ⟨hMem, by simpa using hNew, hLookup⟩
  · rintro ⟨hMem, hNew, hLookup⟩
    exact ⟨node.name, ⟨hMem, by simpa using hNew⟩, node.data, hLookup, rfl⟩

theorem newNodes_append (names more : List String) :
    newNodes g catalogue (names ++ more) = newNodes g catalogue names
      ++ newNodes g catalogue more := by
  simp [newNodes]

/-- New nodes have the names they were made for, where these are known. -/
theorem names_newNodes (names : List String) :
    (newNodes g catalogue names).map Node.name =
      (names.filter fun name => !g.contains name).filter fun name =>
        (catalogue.lookup name).isSome := by
  unfold newNodes
  induction names.filter fun name => !g.contains name with
  | nil => rfl
  | cons name rest ih =>
    rw [List.filterMap_cons, List.filter_cons]
    cases catalogue.lookup name with
    | none => simpa using ih
    | some data => simpa using ih

-- ---------------------------------------------------------------------------
-- Gathering
-- ---------------------------------------------------------------------------

variable [Dependent α]

/-- The entry of `a` lists `b` among what it depends on. -/
def Requires (catalogue : List (String × α)) (a b : String) : Prop :=
  ∃ data, catalogue.lookup a = some data ∧ b ∈ dependencies data

/-- Where the gathering of a closure for `g` stands. -/
structure Gathering (g : Graph α) (catalogue : List (String × α)) (root : String)
    (agenda : List String) (found : Gathered (Graph α)) : Prop where
  asked_nodup : found.asked.Nodup
  root_mem    : root ∈ found.asked ++ agenda
  required    : ∀ n ∈ found.asked ++ agenda, ReflTransGen (Requires catalogue) root n
  closed      : ∀ n ∈ found.asked, ∀ m, Requires catalogue n m → m ∈ found.asked ++ agenda
  nodes_eq    : found.graph.nodes = g.nodes ++ newNodes g catalogue found.asked
  edges_eq    : found.graph.edges = g.edges

namespace Gathering

variable {agenda later : List String} {found : Gathered (Graph α)} {name : String}

theorem start (g : Graph α) (catalogue : List (String × α)) (root : String) :
    Gathering g catalogue root [root] ⟨g, []⟩ where
  asked_nodup := .nil
  root_mem := by simp
  required n hn := by
    obtain rfl : n = root := by simpa using hn
    exact .refl
  closed := by simp
  nodes_eq := by simp [newNodes]
  edges_eq := rfl

/-- A name that has been asked for can be taken off the agenda. -/
theorem skip (h : Gathering g catalogue root (name :: later) found) (hOld : name ∈ found.asked) :
    Gathering g catalogue root later found := by
  have hSame : ∀ n, n ∈ found.asked ++ name :: later ↔ n ∈ found.asked ++ later := by
    intro n
    simp only [List.mem_append, List.mem_cons]
    constructor
    · rintro (hn | rfl | hn)
      exacts [.inl hn, .inl hOld, .inr hn]
    · rintro (hn | hn)
      exacts [.inl hn, .inr (.inr hn)]
  exact {
    asked_nodup := h.asked_nodup
    root_mem := (hSame root).mp h.root_mem
    required := fun n hn => h.required n ((hSame n).mpr hn)
    closed := fun n hn m hm => (hSame m).mp (h.closed n hn m hm)
    nodes_eq := h.nodes_eq
    edges_eq := h.edges_eq }

theorem asked_concat_nodup (h : Gathering g catalogue root agenda found)
    (hNew : name ∉ found.asked) : (found.asked ++ [name]).Nodup := by
  refine List.nodup_append.mpr ⟨h.asked_nodup, by simp, ?_⟩
  intro a ha b hb hab
  obtain rfl : b = name := by simpa using hb
  exact hNew (hab ▸ ha)

/-- A name that the catalogue does not know has nothing beneath it. -/
theorem leaf (h : Gathering g catalogue root (name :: later) found) (hNew : name ∉ found.asked)
    (hNone : catalogue.lookup name = none) :
    Gathering g catalogue root later ⟨found.graph, found.asked ++ [name]⟩ := by
  have hSame : found.asked ++ [name] ++ later = found.asked ++ name :: later := by simp
  refine ⟨h.asked_concat_nodup hNew, hSame ▸ h.root_mem, hSame ▸ h.required, ?_, ?_, h.edges_eq⟩
  · intro n hn m hm
    rw [hSame]
    rcases List.mem_append.mp hn with hn | hn
    · exact h.closed n hn m hm
    · obtain rfl : n = name := by simpa using hn
      obtain ⟨data, hLookup, -⟩ := hm
      simp [hNone] at hLookup
  · have hNothing : newNodes g catalogue [name] = [] := by
      simp [newNodes, List.filterMap_filter, hNone]
    rw [newNodes_append, hNothing, List.append_nil]
    exact h.nodes_eq

/-- What a known name depends on is put on the agenda. -/
theorem known {data : α} (h : Gathering g catalogue root (name :: later) found)
    (hNew : name ∉ found.asked) (hLookup : catalogue.lookup name = some data) :
    Gathering g catalogue root
      ((dependencies data).filter (· ∉ found.asked ++ [name]) ++ later)
      ⟨found.graph.add name data, found.asked ++ [name]⟩ := by
  -- nothing gets lost: the name has moved from the agenda to those asked for
  have hOld : ∀ n ∈ found.asked ++ name :: later, n ∈ (found.asked ++ [name]) ++
      ((dependencies data).filter (· ∉ found.asked ++ [name]) ++ later) := by
    intro n hn
    simp only [List.mem_append, List.mem_cons] at hn ⊢
    tauto
  refine ⟨h.asked_concat_nodup hNew, hOld root h.root_mem, ?_, ?_, ?_, ?_⟩
  · intro n hn
    simp only [List.mem_append, List.mem_filter] at hn
    rcases hn with (hn | hn) | ⟨hn, -⟩ | hn
    · exact h.required n (by simp [hn])
    · exact h.required n (by simp at hn; simp [hn])
    · exact (h.required name (by simp)).tail ⟨data, hLookup, hn⟩
    · exact h.required n (by simp [hn])
  · intro n hn m hm
    rcases List.mem_append.mp hn with hn | hn
    · exact hOld m (h.closed n hn m hm)
    · obtain rfl : n = name := by simpa using hn
      obtain ⟨data', hLookup', hDep⟩ := hm
      obtain rfl : data = data' := by simpa [hLookup] using hLookup'
      by_cases hAsked : m ∈ found.asked ++ [n]
      · exact List.mem_append_left _ hAsked
      · refine List.mem_append_right _ (List.mem_append_left _ ?_)
        simpa [hDep] using hAsked
  · -- no new node has a name that was not asked for
    have hContains : found.graph.contains name = g.contains name := by
      rw [Bool.eq_iff_iff, contains_iff, contains_iff, h.nodes_eq, List.map_append, List.mem_append,
        or_iff_left]
      rintro hMem
      obtain ⟨node, hNode, rfl⟩ := List.mem_map.mp hMem
      exact hNew (mem_newNodes.mp hNode).1
    rw [newNodes_append, ← List.append_assoc, ← h.nodes_eq, add, hContains]
    by_cases hIn : g.contains name = true
    · simp [hIn, newNodes]
    · simp [hIn, newNodes, hLookup]
  · show (found.graph.add name data).edges = g.edges
    unfold add
    split <;> exact h.edges_eq

/-- With nothing left on the agenda, exactly the closure has been asked for. -/
theorem mem_asked_iff (h : Gathering g catalogue root [] found) {n : String} :
    n ∈ found.asked ↔ ReflTransGen (Requires catalogue) root n := by
  constructor
  · exact fun hn => h.required n (by simpa using hn)
  · intro hn
    induction hn with
    | refl => simpa using h.root_mem
    | tail _ hStep ih => simpa using h.closed _ ih _ hStep

end Gathering

/-- **Gathering ends with an empty agenda**, having kept what it is bound to
keep at every step. -/
theorem gather_gathering {agenda : List String} {found : Gathered (Graph α)}
    (h : Gathering g catalogue root agenda found) :
    Gathering g catalogue root [] (gather add catalogue agenda found) := by
  fun_induction gather add catalogue agenda found with
  | case1 found => exact h
  | case2 found name later hOld ih => exact ih (h.skip hOld)
  | case3 found name later hNew asked hNone ih => exact ih (h.leaf hNew hNone)
  | case4 found name later hNew asked data hLookup ih => exact ih (h.known hNew hLookup)

end TaskMill.Graph
