import TaskMill.Proofs.Growth
/-!
# TaskMill — the order in which a closure is looked up

A closure is gathered from an agenda: the first name is taken off, looked up, and
what it is found to depend on goes in front of what is left. Names that have been
asked for are sifted out both before they go on the agenda and when they come up.

What this comes to is the **preorder** of a depth-first walk, which has no agenda
and calls itself: a name, then all that is beneath it, dependency by dependency,
and only then its neighbour; a name met before is passed over (`Walks`). The link
is that an agenda can be cut anywhere (`Walks.append_iff`): walking what stands
before the cut and then what stands after it is to walk the whole.

## Results

* `Graph.walks_gather` — gathering asks in preorder, whatever the agenda.
* `Graph.Gathering.resolved_iff`, `Graph.Gathering.names_eq` — a closure gathered from
  nothing.
* `Graph.extend_in_preorder` — what extending a graph comes to, for every lookup that
  knows finitely many names.
-/

namespace TaskMill

open Relation (ReflTransGen)

-- ---------------------------------------------------------------------------
-- Walks
-- ---------------------------------------------------------------------------

/-- Walking `names` one after the other, each with all that is beneath it, leads from
the names met before to those met at last, in the order in which they were met. -/
inductive Walks (next : String → List String) :
    List String → List String → List String → Prop where
  | done (met : List String) : Walks next met [] met
  | again {name : String} {later met last : List String} (hOld : name ∈ met)
      (hLater : Walks next met later last) : Walks next met (name :: later) last
  | enter {name : String} {later met below last : List String} (hNew : name ∉ met)
      (hBeneath : Walks next (met ++ [name]) (next name) below)
      (hLater : Walks next below later last) : Walks next met (name :: later) last

namespace Walks

variable {next : String → List String} {met names more last : List String}

/-- What has been met stays met. -/
theorem isPrefix (h : Walks next met names last) : met <+: last := by
  induction h with
  | done met => exact List.prefix_rfl
  | again _ _ ih => exact ih
  | enter _ _ _ ihBeneath ihLater =>
    exact (List.prefix_append _ _).trans (ihBeneath.trans ihLater)

theorem nodup (h : Walks next met names last) (hMet : met.Nodup) : last.Nodup := by
  induction h with
  | done met => exact hMet
  | again _ _ ih => exact ih hMet
  | @enter name later met below last hNew _ _ ihBeneath ihLater =>
    refine ihLater (ihBeneath (List.nodup_append.mpr ⟨hMet, by simp, ?_⟩))
    intro a ha b hb
    exact List.mem_singleton.mp hb ▸ ne_of_mem_of_not_mem ha hNew

/-- A walk goes one way only. -/
theorem unique (h : Walks next met names last) {other : List String}
    (hOther : Walks next met names other) : other = last := by
  induction h generalizing other with
  | done met =>
    cases hOther
    rfl
  | again hOld _ ih =>
    cases hOther with
    | again _ hLater' => exact ih hLater'
    | enter hNew _ _ => exact absurd hOld hNew
  | enter hNew _ _ ihBeneath ihLater =>
    cases hOther with
    | again hOld _ => exact absurd hOld hNew
    | enter _ hBeneath' hLater' =>
      obtain rfl := ihBeneath hBeneath'
      exact ihLater hLater'

/-- **A walk can be cut anywhere.** -/
theorem append_iff : Walks next met (names ++ more) last ↔
    ∃ mid, Walks next met names mid ∧ Walks next mid more last := by
  constructor
  · intro h
    induction names generalizing met with
    | nil => exact ⟨met, .done met, h⟩
    | cons name later ih =>
      cases h with
      | again hOld hLater =>
        obtain ⟨mid, hFirst, hRest⟩ := ih hLater
        exact ⟨mid, .again hOld hFirst, hRest⟩
      | enter hNew hBeneath hLater =>
        obtain ⟨mid, hFirst, hRest⟩ := ih hLater
        exact ⟨mid, .enter hNew hBeneath hFirst, hRest⟩
  · rintro ⟨mid, hFirst, hRest⟩
    induction hFirst with
    | done met => exact hRest
    | again hOld _ ih => exact .again hOld (ih hRest)
    | enter hNew hBeneath _ _ ih => exact .enter hNew hBeneath (ih hRest)

/-- Names met before may be sifted out of what is to be walked. -/
theorem of_filter {old : List String} (hOld : ∀ name ∈ old, name ∈ met)
    (h : Walks next met (names.filter (· ∉ old)) last) : Walks next met names last := by
  induction names generalizing met with
  | nil => exact h
  | cons name later ih =>
    by_cases hName : name ∈ old
    · rw [List.filter_cons_of_neg (by simpa using hName)] at h
      exact .again (hOld name hName) (ih hOld h)
    · rw [List.filter_cons_of_pos (by simpa using hName)] at h
      cases h with
      | again hMet hLater => exact .again hMet (ih hOld hLater)
      | enter hNew hBeneath hLater =>
        -- what is beneath the name adds to what has been met
        have hKept := (List.prefix_append _ _).trans hBeneath.isPrefix
        exact .enter hNew hBeneath (ih (fun n hn => hKept.subset (hOld n hn)) hLater)

end Walks

namespace Graph

variable {α : Type} {catalogue : List (String × α)} {look : String → Option α} {g : Graph α}
  {root : String}

/-- The nodes of those names that a lookup knows, in the order of the names. -/
def nodesOf (look : String → Option α) (names : List String) : List (Node α) :=
  names.filterMap fun name => (look name).map (⟨name, ·⟩)

/-- A graph with nodes for those of some names that a lookup knows and that have none
yet. -/
def grown (g : Graph α) (look : String → Option α) (names : List String) : Graph α :=
  { g with nodes := g.nodes ++ nodesOf look (names.filter fun name => !g.contains name) }

/-- A lookup that knows finitely many names answers as a catalogue does. -/
theorem exists_catalogue (hFinite : {name | (look name).isSome = true}.Finite) :
    ∃ catalogue : List (String × α), ∀ name, catalogue.lookup name = look name := by
  let known : List (String × Option α) := hFinite.toFinset.toList.map fun name => (name, look name)
  have hKeys : known.map Prod.fst = hFinite.toFinset.toList := by simp [known, Function.comp_def]
  have hDistinct : (known.map Prod.fst).Nodup := hKeys ▸ hFinite.toFinset.nodup_toList
  refine ⟨Table.present known, fun name => ?_⟩
  rw [Table.lookup_present hDistinct]
  by_cases hKnown : (look name).isSome = true
  · have hMem : (name, look name) ∈ known :=
      List.mem_map_of_mem (Finset.mem_toList.mpr (hFinite.mem_toFinset.mpr hKnown))
    rw [(Table.lookup_eq_some_iff hDistinct).mpr hMem, Option.join_some]
  · have hAbsent : name ∉ known.map Prod.fst := by
      rw [hKeys, Finset.mem_toList, hFinite.mem_toFinset]
      exact hKnown
    rw [Table.lookup_eq_none_iff.mpr hAbsent, Option.join_none, eq_comm]
    simpa using hKnown

/-- The names that a catalogue knows are finitely many. -/
theorem finite_catalogue (catalogue : List (String × α)) :
    {name | (catalogue.lookup name).isSome = true}.Finite :=
  (List.finite_toSet (catalogue.map Prod.fst)).subset fun _ h => Table.isSome_lookup_iff.mp h

variable [Dependent α]

/-- What a name is found to depend on; nothing, if it is not found. -/
def beneath (look : String → Option α) (name : String) : List String :=
  ((look name).map dependencies).getD []

theorem beneath_of_some {name : String} {data : α} (hSome : look name = some data) :
    beneath look name = dependencies data := by
  rw [beneath, hSome]
  rfl

theorem beneath_of_none {name : String} (hNone : look name = none) : beneath look name = [] := by
  rw [beneath, hNone]
  rfl

/-- `b` is in the closure of `a`. -/
abbrev Reaches (look : String → Option α) : String → String → Prop :=
  ReflTransGen fun a b => b ∈ beneath look a

section Answers

variable (hLook : ∀ name, catalogue.lookup name = look name)

include hLook

theorem requires_iff_beneath {a b : String} :
    Requires catalogue a b ↔ b ∈ beneath look a := by
  unfold Requires
  rw [hLook]
  cases hFound : look a with
  | none => simp [beneath_of_none hFound]
  | some data => simp [beneath_of_some hFound]

-- ---------------------------------------------------------------------------
-- Agendas
-- ---------------------------------------------------------------------------

/-- **Gathering asks in preorder.** The induction is that of gathering; where a name
is found, the agenda is cut behind what the name depends on. -/
theorem walks_gather (agenda : List String) (found : Gathered (Graph α)) :
    Walks (beneath look) found.asked agenda (gather add catalogue agenda found).asked := by
  fun_induction gather add catalogue agenda found with
  | case1 found => exact .done found.asked
  | case2 found name later hOld ih => exact .again hOld ih
  | case3 found name later hNew asked hNone ih =>
    refine .enter hNew ?_ ih
    rw [beneath_of_none ((hLook name).symm.trans hNone)]
    exact .done asked
  | case4 found name later hNew asked data hSome ih =>
    obtain ⟨below, hBeneath, hLater⟩ := Walks.append_iff.mp ih
    refine .enter hNew ?_ hLater
    rw [beneath_of_some ((hLook name).symm.trans hSome)]
    exact hBeneath.of_filter fun _ hMem => hMem

theorem extend_of_notFound (hNone : look root = none) :
    g.extend catalogue root = ⟨g, [root], some (.notFound root)⟩ := by
  rw [extend, extendBy, hLook, hNone]
  rfl

theorem extend_of_found (hFound : look root ≠ none) {found : Gathered (Graph α)}
    (hGather : gather add catalogue [root] ⟨g, []⟩ = found) :
    g.extend catalogue root = match found.graph.link with
      | .error fault => ⟨found.graph, found.asked, some fault⟩
      | .ok linked => ⟨linked, found.asked, none⟩ := by
  subst hGather
  have hSome : ¬ (look root).isNone = true := by simpa using hFound
  rw [extend, extendBy, hLook, if_neg hSome]
  dsimp only
  cases (gather add catalogue [root] ⟨g, []⟩).graph.link <;> rfl

/-- To extend a graph is to ask a lookup, -/
theorem exists_extends (g : Graph α) (root : String) :
    ∃ adds, Extends (fun _ => look) g root adds (g.extend catalogue root) := by
  obtain rfl : look = fun name => catalogue.lookup name := funext fun name => (hLook name).symm
  exact exists_extendsBy add link g catalogue root

/-- and to ask it comes to one thing only. -/
theorem Extends.eq_extend {adds : List (String × α)} {e : Extended (Graph α)}
    (h : Extends (fun _ => look) g root adds e) : e = g.extend catalogue root := by
  obtain rfl : look = fun name => catalogue.lookup name := funext fun name => (hLook name).symm
  exact ExtendsBy.eq_extendBy h

end Answers

-- ---------------------------------------------------------------------------
-- Closures gathered from nothing
-- ---------------------------------------------------------------------------

namespace Gathering

variable {found : Gathered (Graph α)} (hLook : ∀ name, catalogue.lookup name = look name)
  (h : Gathering g catalogue root [] found)

include hLook h

theorem graph_eq_grown : found.graph = g.grown look found.asked := by
  obtain rfl : (fun name => catalogue.lookup name) = look := funext hLook
  show found.graph = ⟨g.nodes ++ newNodes g catalogue found.asked, g.edges⟩
  rw [← h.nodes_eq, ← h.edges_eq]

theorem mem_asked_iff_reaches {name : String} :
    name ∈ found.asked ↔ Reaches look root name := by
  have hSame : Requires catalogue = fun a b => b ∈ beneath look a :=
    funext fun _ => funext fun _ => propext (requires_iff_beneath hLook)
  rw [h.mem_asked_iff, hSame]

variable (hEmpty : g = .empty)

include hEmpty

theorem mem_nodes {node : Node α} : node ∈ found.graph.nodes ↔
    Reaches look root node.name ∧ look node.name = some node.data := by
  subst hEmpty
  rw [← h.mem_asked_iff_reaches hLook, ← hLook, h.nodes_eq, Graph.empty, List.nil_append,
    mem_newNodes]
  simp [contains]

/-- Nothing dangles exactly if all that anything in the closure depends on is
found. -/
theorem resolved_iff : found.graph.unresolved = [] ↔
    ∀ name, Reaches look root name → ∀ dep ∈ beneath look name, look dep ≠ none := by
  rw [List.eq_nil_iff_forall_not_mem]
  constructor
  · intro hNone name hName dep hDep hMissing
    obtain ⟨data, hSome, hListed⟩ := (requires_iff_beneath hLook).mpr hDep
    refine hNone (name, dep) (mem_unresolved.mpr ⟨⟨⟨name, data⟩, ?_, rfl, hListed⟩, ?_⟩)
    · exact (h.mem_nodes hLook hEmpty).mpr ⟨hName, (hLook name).symm.trans hSome⟩
    · intro hIn
      obtain ⟨node, hNode, rfl⟩ := List.mem_map.mp hIn
      simp [((h.mem_nodes hLook hEmpty).mp hNode).2] at hMissing
  · rintro hAll ⟨task, dep⟩ hMem
    obtain ⟨⟨node, hNode, -, hListed⟩, hAbsent⟩ := mem_unresolved.mp hMem
    obtain ⟨hName, hSome⟩ := (h.mem_nodes hLook hEmpty).mp hNode
    have hDep : dep ∈ beneath look node.name := by rwa [beneath_of_some hSome]
    obtain ⟨data, hFound⟩ := Option.ne_none_iff_exists'.mp (hAll _ hName dep hDep)
    refine hAbsent (List.mem_map.mpr ⟨⟨dep, data⟩, ?_, rfl⟩)
    exact (h.mem_nodes hLook hEmpty).mpr ⟨hName.tail hDep, hFound⟩

/-- If nothing dangles, every name asked for has its node, in the same order. -/
theorem names_eq (hRoot : look root ≠ none) (hResolved : found.graph.unresolved = []) :
    found.graph.nodes.map Node.name = found.asked := by
  have hFound : ∀ name ∈ found.asked, (catalogue.lookup name).isSome = true := by
    intro name hName
    rw [hLook, Option.isSome_iff_ne_none]
    -- a name of the closure is its root, or something in the closure depends on it
    rcases ReflTransGen.cases_tail ((h.mem_asked_iff_reaches hLook).mp hName) with
      rfl | ⟨a, ha, hDep⟩
    · exact hRoot
    · exact (h.resolved_iff hLook hEmpty).mp hResolved a ha name hDep
  subst hEmpty
  rw [h.nodes_eq, Graph.empty, List.nil_append, names_newNodes, List.filter_filter,
    List.filter_eq_self]
  intro name hName
  simpa [contains] using hFound name hName

end Gathering

-- ---------------------------------------------------------------------------
-- Extending a graph
-- ---------------------------------------------------------------------------

section Extension

variable (hLook : ∀ name, catalogue.lookup name = look name)

include hLook

/-- Where the root is found, only what dangles can go wrong. -/
theorem extend_spec (hFound : look root ≠ none) {found : Gathered (Graph α)}
    (hGather : gather add catalogue [root] ⟨g, []⟩ = found) :
    (g.extend catalogue root).asked = found.asked ∧
    (g.extend catalogue root).graph.nodes = found.graph.nodes ∧
    ((g.extend catalogue root).fault = none ↔ found.graph.unresolved = []) := by
  rw [extend_of_found hLook hFound hGather]
  cases hLink : found.graph.link with
  | error fault => simp [(refused_of_link hLink).2]
  | ok linked =>
    obtain ⟨hResolved, hNodes, -⟩ := linked_of_link hLink
    simp [hResolved, hNodes]

/-- Whether the root is found or not, names are asked for in preorder. -/
theorem walks_extend (g : Graph α) (root : String) :
    Walks (beneath look) [] [root] (g.extend catalogue root).asked := by
  by_cases hFound : look root = none
  · rw [extend_of_notFound hLook hFound]
    refine .enter (by simp) ?_ (.done _)
    rw [beneath_of_none hFound]
    exact .done _
  · rw [(extend_spec hLook hFound rfl).1]
    exact walks_gather hLook [root] ⟨g, []⟩

/-- Linking the graph that has grown decides what is left and what is told. -/
theorem extend_eq_link_grown (hFound : look root ≠ none) :
    match (g.grown look (g.extend catalogue root).asked).link with
    | .ok linked => (g.extend catalogue root).graph = linked ∧
        (g.extend catalogue root).fault = none
    | .error fault => (g.extend catalogue root).graph =
          g.grown look (g.extend catalogue root).asked ∧
        (g.extend catalogue root).fault = some fault := by
  obtain ⟨found, hGather⟩ : ∃ found, gather add catalogue [root] ⟨g, []⟩ = found := ⟨_, rfl⟩
  have hGathering : Gathering g catalogue root [] found :=
    hGather ▸ gather_gathering (.start g catalogue root)
  rw [(extend_spec hLook hFound hGather).1, ← hGathering.graph_eq_grown hLook,
    extend_of_found hLook hFound hGather]
  cases hLink : found.graph.link with
  | error fault => exact ⟨rfl, rfl⟩
  | ok linked => exact ⟨rfl, rfl⟩

end Extension

/--
**Closures are looked up in preorder.** For every graph and every lookup that knows
finitely many names, extending the graph by all that is found beneath a root comes to
an end, in one way, and the catalogue that answers as the lookup does comes to the
same. The names asked for are those of the recursive walk from the root, each once.

A root that is not found is told and leaves the graph as it was. Otherwise the names
found that have no node get one, in the order in which they were asked for and with
the data found, behind the nodes there were, and linking the graph so grown decides
what is left and what is told.

From nothing, the extension succeeds exactly if the root is found and so is all that
anything in its closure depends on; and then the nodes are the closure.
-/
theorem extend_in_preorder (g : Graph α) (root : String)
    (hFinite : {name | (look name).isSome = true}.Finite) :
    ∃ e : Extended (Graph α),
      (∃ adds, Extends (fun _ => look) g root adds e) ∧
      (∀ adds e', Extends (fun _ => look) g root adds e' → e' = e) ∧
      (∀ catalogue : List (String × α), (∀ name, catalogue.lookup name = look name) →
        g.extend catalogue root = e) ∧
      (∀ names, Walks (beneath look) [] [root] names ↔ names = e.asked) ∧ e.asked.Nodup ∧
      (look root = none → e.graph = g ∧ e.fault = some (.notFound root)) ∧
      (look root ≠ none →
        match (g.grown look e.asked).link with
        | .ok linked => e.graph = linked ∧ e.fault = none
        | .error fault => e.graph = g.grown look e.asked ∧ e.fault = some fault) ∧
      (g = .empty →
        (e.fault = none ↔ look root ≠ none ∧
          ∀ name, Reaches look root name → ∀ dep ∈ beneath look name, look dep ≠ none) ∧
        (e.fault = none → e.graph.nodes.map Node.name = e.asked ∧
          ∀ name, name ∈ e.asked ↔ Reaches look root name)) := by
  obtain ⟨catalogue, hLook⟩ := exists_catalogue hFinite
  have hWalks := walks_extend hLook g root
  refine ⟨g.extend catalogue root, exists_extends hLook g root, fun _ _ h => h.eq_extend hLook, ?_,
    fun names => ⟨hWalks.unique, fun hNames => hNames ▸ hWalks⟩, hWalks.nodup .nil, ?_,
    extend_eq_link_grown hLook, ?_⟩
  · intro catalogue' hLook'
    obtain ⟨_, hExtends⟩ := exists_extends hLook' g root
    exact hExtends.eq_extend hLook
  · intro hNone
    rw [extend_of_notFound hLook hNone]
    exact ⟨rfl, rfl⟩
  · intro hEmpty
    by_cases hFound : look root = none
    · rw [extend_of_notFound hLook hFound]
      simp [hFound]
    · obtain ⟨hAsked, hNodes, hFault⟩ := extend_spec hLook (g := g) hFound rfl
      have hGathering := gather_gathering (.start g catalogue root)
      rw [hAsked, hNodes, hFault, hGathering.resolved_iff hLook hEmpty]
      refine ⟨(and_iff_right hFound).symm, fun hResolved => ?_⟩
      rw [← hGathering.resolved_iff hLook hEmpty] at hResolved
      exact ⟨hGathering.names_eq hLook hEmpty hFound hResolved,
        fun name => hGathering.mem_asked_iff_reaches hLook⟩

-- ---------------------------------------------------------------------------
-- A knot
-- ---------------------------------------------------------------------------

namespace Knot

def entries : List (String × List String) :=
  [("app", ["b", "a", "b"]), ("b", ["c"]), ("a", ["c", "gone"]), ("c", ["app"])]

def find (name : String) : Option (List String) := entries.lookup name

/-- Something else is known of `c` already. -/
def start : Graph (List String) := ⟨[⟨"c", []⟩], []⟩

theorem walk : Walks (beneath find) [] ["app"] ["app", "b", "c", "a", "gone"] := by
  have hC : Walks (beneath find) ["app", "b", "c"] ["app"] ["app", "b", "c"] :=
    .again (by decide) (.done _)
  have hB : Walks (beneath find) ["app", "b"] ["c"] ["app", "b", "c"] :=
    .enter (by decide) hC (.done _)
  have hA : Walks (beneath find) ["app", "b", "c", "a"] ["c", "gone"]
      ["app", "b", "c", "a", "gone"] :=
    .again (by decide) (.enter (by decide) (.done _) (.done _))
  have hApp : Walks (beneath find) ["app"] ["b", "a", "b"] ["app", "b", "c", "a", "gone"] :=
    .enter (by decide) hB (.enter (by decide) hA (.again (by decide) (.done _)))
  exact .enter (by decide) hApp (.done _)

end Knot

/-- Of a name that is there already the old data count, but what is beneath it is
looked up all the same; a dependency that is not found is asked for last. -/
theorem extend_in_preorder_knot : {name | (Knot.find name).isSome = true}.Finite ∧
    Knot.start.extend Knot.entries "app" =
      ⟨⟨[⟨"c", []⟩, ⟨"app", ["b", "a", "b"]⟩, ⟨"b", ["c"]⟩, ⟨"a", ["c", "gone"]⟩], []⟩,
        ["app", "b", "c", "a", "gone"], some (.missing [("a", "gone")])⟩ := by
  have hFinite : {name | (Knot.find name).isSome = true}.Finite := finite_catalogue Knot.entries
  refine ⟨hFinite, ?_⟩
  obtain ⟨e, -, -, hCatalogue, hNames, -, -, hFound, -⟩ :=
    extend_in_preorder Knot.start "app" hFinite
  have hAsked := (hNames _).mp Knot.walk
  have hLink : (Knot.start.grown Knot.find ["app", "b", "c", "a", "gone"]).link =
      .error (.missing [("a", "gone")]) := by decide
  have hLeft := hFound (by decide)
  rw [← hAsked, hLink] at hLeft
  obtain ⟨hGraph, hFault⟩ := hLeft
  rw [hCatalogue Knot.entries fun _ => rfl]
  cases e
  subst hAsked hGraph hFault
  rfl

end Graph

end TaskMill
