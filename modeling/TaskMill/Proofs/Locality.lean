import Mathlib
import TaskMill.Proofs.Ledger
import TaskMill.Proofs.Siblings
/-!
# TaskMill — what a plan depends on

The graph that a plan is made from is numbered in the order in which names were
looked up, and its edges were added in the order in which dependencies are
listed. None of this can be seen in the plan, as dependencies are visited in the
order of their declaration.

So two registries give the same plan of a name, or the same cycle, if its closure
is the same in both (`SameClosure`). Tasks outside of the closure do not count,
nor do the order in which a task lists its dependencies and how often it lists
them. And the graph of all tasks, numbered as they were declared, gives the same
plans as the graphs of the closures do.

## Results

* `sameClosure_of_sublist`, `sameClosure_of_forall₂` — what leaves a closure the
  same.
* `plan_of_sameClosure` — a plan depends on the closure only.
* `plan_agrees_with_order` — a plan is the order of the graph of all tasks.
-/

namespace TaskMill

namespace Registry

variable {r r' : Registry} {name : String}

-- ---------------------------------------------------------------------------
-- Plans in names
-- ---------------------------------------------------------------------------

/-- Where nothing dangles, a plan is what the graph of the closure is ordered
to. -/
theorem plan_names (hName : r.contains name = true) (hSound : ¬ r.Dangles name) :
    ∃ linked, (r.closureGraph name).link = .ok linked ∧ linked.contains name = true ∧
      (r.plan name).map (·.map Task.name) =
        ((linked.orderBy name fun node => (r.position? node.name).getD r.size).map
          (·.map Node.name)).mapError .ofGraph := by
  obtain ⟨linked, hLink⟩ := exists_link_of_not_dangles hSound
  refine ⟨linked, hLink, ?_, ?_⟩
  · rw [Graph.contains_iff, linked_nodes_eq hLink, mem_names_closureGraph]
    exact ⟨.refl, hName⟩
  · have hSpec := Graph.orderBy_spec (linked_wellFormed hLink)
      (fun node => (r.position? node.name).getD r.size) name
    rw [plan_of_contains hName, hLink]
    simp only
    cases hOrder : linked.orderBy name fun node => (r.position? node.name).getD r.size with
    | error fault => rfl
    | ok nodes =>
      rw [hOrder] at hSpec
      exact congrArg Except.ok (map_name_data (linked_nodes_eq hLink ▸ hSpec.1))

-- ---------------------------------------------------------------------------
-- Registries that agree on a closure
-- ---------------------------------------------------------------------------

/-- Two registries have the same closure of a name: the same tasks, which depend
on the same names and are declared in the same order. -/
structure SameClosure (r r' : Registry) (name : String) : Prop where
  closure    : ∀ n, r.Reaches name n ↔ r'.Reaches name n
  registered : ∀ n, r.Reaches name n → r.contains n = r'.contains n
  requires   : ∀ a, r.Reaches name a → ∀ b, r.Requires a b ↔ r'.Requires a b
  declared   : ∀ a b, r.Reaches name a → r.Reaches name b → (r.Precedes a b ↔ r'.Precedes a b)

/-- Two plannings came to the same names in the same order, or both to the same
cycle, or both to an unknown name. -/
def SamePlan : Except Fault (List Task) → Except Fault (List Task) → Prop
  | .ok plan, .ok plan' => plan.map Task.name = plan'.map Task.name
  | .error (.cyclicDependency cycle), .error (.cyclicDependency cycle') => cycle = cycle'
  | .error (.unknownTask ..), .error (.unknownTask ..) => True
  | _, _ => False

namespace SameClosure

variable (h : r.SameClosure r' name)

include h

theorem dangles_iff : r.Dangles name ↔ r'.Dangles name := by
  constructor
  · rintro ⟨task, dep, hReach, hStep, hMissing⟩
    refine ⟨task, dep, (h.closure task).mp hReach, (h.requires task hReach dep).mp hStep, ?_⟩
    rw [← h.registered dep (hReach.tail hStep), hMissing]
  · rintro ⟨task, dep, hReach, hStep, hMissing⟩
    replace hReach := (h.closure task).mpr hReach
    replace hStep := (h.requires task hReach dep).mpr hStep
    refine ⟨task, dep, hReach, hStep, ?_⟩
    rw [h.registered dep (hReach.tail hStep), hMissing]

/-- Where nothing dangles, both plannings come to the same names or to the same
fault. -/
theorem plan_names_eq (hName : r.contains name = true) (hSound : ¬ r.Dangles name) :
    (r'.plan name).map (·.map Task.name) = (r.plan name).map (·.map Task.name) := by
  have hName' : r'.contains name = true := h.registered name .refl ▸ hName
  obtain ⟨linked, hLink, hRoot, hPlan⟩ := plan_names hName hSound
  obtain ⟨linked', hLink', hRoot', hPlan'⟩ := plan_names hName' (h.dangles_iff.not.mp hSound)
  have hArranged := arranged_closure hLink
  -- the names of the other graph are those of the closure too
  have hDeclared : ∀ a ∈ linked'.nodes.map Node.name, ∀ b ∈ linked'.nodes.map Node.name,
      r'.Precedes a b → r.Precedes a b := by
    intro a ha b hb hab
    rw [linked_nodes_eq hLink', mem_names_closureGraph, ← h.closure] at ha hb
    exact (h.declared a b ha.1 hb.1).mpr hab
  have hArranged' := (arranged_closure hLink').imp (linked_wellFormed hLink') hDeclared
  have hOrder := hArranged.order_eq hArranged' (linked_wellFormed hLink) (linked_wellFormed hLink')
    hRoot hRoot' fun a hReach b => by
      rw [reflTransGen_dependsOn_iff hLink] at hReach
      rw [dependsOn_iff hLink, dependsOn_iff hLink', ← h.closure, h.requires a hReach]
  rw [hPlan, hPlan']
  exact congrArg (Except.mapError Fault.ofGraph) hOrder

/-- **A plan depends on the closure only.** -/
theorem samePlan : SamePlan (r.plan name) (r'.plan name) := by
  cases hName : r.contains name with
  | false =>
    rw [plan_of_not_contains hName, plan_of_not_contains (h.registered name .refl ▸ hName)]
    trivial
  | true =>
    have hName' : r'.contains name = true := h.registered name .refl ▸ hName
    by_cases hDangles : r.Dangles name
    · obtain ⟨_, _, hPlan, -⟩ := plan_of_dangles hName hDangles
      obtain ⟨_, _, hPlan', -⟩ := plan_of_dangles hName' (h.dangles_iff.mp hDangles)
      rw [hPlan, hPlan']
      trivial
    · have hEq := h.plan_names_eq hName hDangles
      -- each comes to a cycle or a plan, and they do so together
      rcases plan_of_not_dangles hName hDangles with ⟨cycle, hPlan, -⟩ | ⟨tasks, hPlan, -⟩ <;>
        rcases plan_of_not_dangles hName' (h.dangles_iff.not.mp hDangles) with
          ⟨cycle', hPlan', -⟩ | ⟨tasks', hPlan', -⟩ <;>
        rw [hPlan, hPlan'] at hEq ⊢
      · exact (Fault.cyclicDependency.inj (Except.error.inj hEq)).symm
      · cases hEq
      · cases hEq
      · exact (Except.ok.inj hEq).symm

end SameClosure

/-- Where the tasks of a closure depend on the same names, the closure is the
same. -/
theorem reaches_iff_of_requires
    (hRequires : ∀ a, r.Reaches name a → ∀ b, r.Requires a b ↔ r'.Requires a b) {n : String} :
    r.Reaches name n ↔ r'.Reaches name n := by
  constructor
  · intro hReach
    induction hReach with
    | refl => exact .refl
    | tail hReach hStep ih => exact ih.tail ((hRequires _ hReach _).mp hStep)
  · intro hReach
    induction hReach with
    | refl => exact .refl
    | tail _ hStep ih => exact ih.tail ((hRequires _ ih _).mpr hStep)

/-- Tasks outside of a closure can be declared anywhere. -/
theorem sameClosure_of_sublist (hSub : r.tasks.Sublist r'.tasks)
    (hOther : ∀ task ∈ r'.tasks, task ∈ r.tasks ∨ ¬ r.Reaches name task.name) :
    r.SameClosure r' name := by
  have hOld : ∀ task ∈ r'.tasks, r.Reaches name task.name → task ∈ r.tasks :=
    fun task hTask hReach => (hOther task hTask).resolve_right (not_not_intro hReach)
  have hRequires : ∀ a, r.Reaches name a → ∀ b, r.Requires a b ↔ r'.Requires a b := by
    intro a hReach b
    constructor
    · rintro ⟨task, hTask, rfl, hDep⟩
      exact ⟨task, hSub.subset hTask, rfl, hDep⟩
    · rintro ⟨task, hTask, rfl, hDep⟩
      exact ⟨task, hOld task hTask hReach, rfl, hDep⟩
  have hRegistered : ∀ n, r.Reaches name n → r.contains n = r'.contains n := by
    intro n hReach
    rw [Bool.eq_iff_iff, contains_iff, contains_iff]
    refine ⟨fun hMem => (hSub.map Task.name).subset hMem, fun hMem => ?_⟩
    obtain ⟨task, hTask, rfl⟩ := List.mem_map.mp hMem
    exact List.mem_map_of_mem (hOld task hTask hReach)
  have hLater : ∀ {a b}, r.Precedes a b → r'.Precedes a b := by
    intro a b
    rw [precedes_iff_sublist, precedes_iff_sublist]
    exact fun h => h.trans (hSub.map Task.name)
  refine ⟨fun n => reaches_iff_of_requires hRequires, hRegistered, hRequires, ?_⟩
  intro a b ha hb
  refine ⟨hLater, fun h => ?_⟩
  -- the two names are declared in one order or the other, and stay in it
  have hNe : a ≠ b := by
    rintro rfl
    exact h.not_symm h
  rcases precedes_or_precedes ((hRegistered a ha).trans h.contains.1)
    ((hRegistered b hb).trans h.contains.2) hNe with hBefore | hAfter
  · exact hBefore
  · exact absurd (hLater hAfter) h.not_symm

/-- The task of the same name, which depends on the same names. -/
def SameTask (task task' : Task) : Prop :=
  task.name = task'.name ∧ ∀ dep, dep ∈ task.dependsOn ↔ dep ∈ task'.dependsOn

/-- Dependencies can be listed in any order and repeatedly. -/
theorem sameClosure_of_forall₂ (hTasks : List.Forall₂ SameTask r.tasks r'.tasks) :
    r.SameClosure r' name := by
  have hNames : r.tasks.map Task.name = r'.tasks.map Task.name := by
    rw [← List.forall₂_eq_eq_eq, List.forall₂_map_left_iff, List.forall₂_map_right_iff]
    exact hTasks.imp fun _ _ h => h.1
  have hRequires : ∀ a b, r.Requires a b ↔ r'.Requires a b := by
    intro a b
    unfold Requires
    clear hNames
    generalize r.tasks = tasks, r'.tasks = tasks' at hTasks ⊢
    induction hTasks with
    | nil => simp
    | cons hFirst _ ih => simp [hFirst.1, hFirst.2, ih]
  refine ⟨fun n => reaches_iff_of_requires fun a _ => hRequires a, fun n _ => ?_,
    fun a _ => hRequires a, fun a b _ _ => ?_⟩
  · rw [Bool.eq_iff_iff, contains_iff, contains_iff, hNames]
  · rw [precedes_iff_sublist, precedes_iff_sublist, hNames]

/--
**A plan depends on the closure only.** Two registries that have the same closure
of a name give the same names in the same order, or both the same cycle, or both
find a name unknown.

So it does not count which other tasks are registered, wherever these are
declared and whatever they depend on; nor in which order a task lists what it
depends on, and how often.
-/
theorem plan_of_sameClosure (r r' : Registry) (name : String) :
    (r.SameClosure r' name → SamePlan (r.plan name) (r'.plan name)) ∧
    (r.tasks.Sublist r'.tasks →
      (∀ task ∈ r'.tasks, task ∈ r.tasks ∨ ¬ r.Reaches name task.name) →
      SamePlan (r.plan name) (r'.plan name)) ∧
    (List.Forall₂ SameTask r.tasks r'.tasks → SamePlan (r.plan name) (r'.plan name)) :=
  ⟨fun hSame => hSame.samePlan,
    fun hSub hOther => (sameClosure_of_sublist hSub hOther).samePlan,
    fun hTasks => (sameClosure_of_forall₂ hTasks).samePlan⟩

end Registry

namespace Bundling

/-- A task that nothing needs, that depends on itself and on what is not there. -/
def stray : Task := { Task.phony "stray" with dependsOn := ["stray", "nowhere"] }

/-- The three tasks and the stray one, declared between them. -/
def strayed : Registry :=
  .ofDistinct [lib, stray, bundle .phony, app] (by simp [lib, stray, bundle, app, Task.phony])

/-- The three tasks, with the library listed twice. -/
def repeated : Registry :=
  .ofDistinct [lib, { bundle .phony with dependsOn := ["lib", "lib"] }, app]
    (by simp [lib, bundle, app])

theorem plan_named : named.plan "app" = .ok [lib, bundle .phony, app] := by cbv

/-- Neither a dependency that is listed twice nor a stray task can be seen in the
plan. -/
theorem plan_of_sameClosure_named :
    (named.SameClosure repeated "app" ∧
      Registry.SamePlan (named.plan "app") (repeated.plan "app")) ∧
    (named.tasks.Sublist strayed.tasks ∧
      (∀ task ∈ strayed.tasks, task ∈ named.tasks ∨ ¬ named.Reaches "app" task.name) ∧
      Registry.SamePlan (named.plan "app") (strayed.plan "app")) ∧
    List.Forall₂ Registry.SameTask named.tasks repeated.tasks ∧
      Registry.SamePlan (named.plan "app") (repeated.plan "app") := by
  have hRepeated : List.Forall₂ Registry.SameTask named.tasks repeated.tasks := by
    refine .cons ⟨rfl, fun dep => .rfl⟩
      (.cons ⟨rfl, fun dep => ?_⟩ (.cons ⟨rfl, fun dep => .rfl⟩ .nil))
    simp [bundle]
  have hSub : named.tasks.Sublist strayed.tasks := by decide
  have hOther : ∀ task ∈ strayed.tasks, task ∈ named.tasks ∨ ¬ named.Reaches "app" task.name := by
    have hStray : ¬ named.Reaches "app" stray.name := by
      rw [← (Registry.isPlan_of_plan plan_named).closure]
      decide
    intro task hTask
    by_cases hOld : task ∈ named.tasks
    · exact .inl hOld
    · have hNew : task = stray := by
        simp [strayed, named, registry] at hTask hOld
        tauto
      exact .inr (hNew ▸ hStray)
  have hSame : named.SameClosure repeated "app" := Registry.sameClosure_of_forall₂ hRepeated
  obtain ⟨hClosure, -, hLists⟩ := Registry.plan_of_sameClosure named repeated "app"
  obtain ⟨-, hInsert, -⟩ := Registry.plan_of_sameClosure named strayed "app"
  exact ⟨⟨hSame, hClosure hSame⟩, ⟨hSub, hOther, hInsert hSub hOther⟩, hRepeated, hLists hRepeated⟩

end Bundling

namespace Registry

variable {r : Registry} {name : String}

-- ---------------------------------------------------------------------------
-- The graph of all tasks
-- ---------------------------------------------------------------------------

theorem exists_link_of_complete (hComplete : r.Complete) : ∃ linked, r.graph.link = .ok linked := by
  rw [Graph.exists_link_iff, Graph.unresolved_eq_dangling]
  exact complete_iff.mp hComplete

/--
**Plans agree with the order of all tasks.** Where every name that is listed is
registered, the graph of all tasks can be linked; and for every registered name,
its order of that name holds the names of the plan, in the same order, or else
both come to the same cycle.
-/
theorem plan_agrees_with_order (hComplete : r.Complete) (hName : r.contains name = true) :
    ∃ linked, r.graph.link = .ok linked ∧
      match r.plan name, linked.order name with
      | .ok tasks, .ok nodes => tasks.map Task.name = nodes.map Node.name
      | .error (.cyclicDependency cycle), .error (.cycle cycle') => cycle = cycle'
      | _, _ => False := by
  obtain ⟨whole, hWhole⟩ := exists_link_of_complete hComplete
  refine ⟨whole, hWhole, ?_⟩
  have hSound : ¬ r.Dangles name := hComplete.not_dangles
  obtain ⟨linked, hLink, hRoot, hPlan⟩ := plan_names hName hSound
  have hWholeFormed : whole.WellFormed :=
    Graph.wellFormed_of_link (names_graph ▸ r.distinct) (by rw [graph_eq]) hWhole
  have hWholeRoot : whole.contains name = true := by
    have hSpec := r.graph.link_spec
    rw [hWhole] at hSpec
    rw [Graph.contains_iff, hSpec.2.1, ← Graph.contains_iff, contains_graph, hName]
  have hOrder := (arranged_closure hLink).order_eq (arranged_graph hWhole) (linked_wellFormed hLink)
    hWholeFormed hRoot hWholeRoot fun a hReach b => by
      rw [reflTransGen_dependsOn_iff hLink] at hReach
      rw [dependsOn_iff hLink, dependsOn_graph_iff hWhole, and_iff_right hReach]
  have hEq : (r.plan name).map (·.map Task.name) =
      ((whole.order name).map (·.map Node.name)).mapError .ofGraph :=
    hPlan.trans (congrArg (Except.mapError Fault.ofGraph) hOrder.symm)
  rcases plan_of_not_dangles hName hSound with ⟨cycle, hCycle, -⟩ | ⟨tasks, hTasks, -⟩
  · rw [hCycle] at hEq ⊢
    cases hAll : whole.order name with
    | ok nodes =>
      rw [hAll] at hEq
      cases hEq
    | error fault =>
      rw [hAll] at hEq
      replace hEq := Except.error.inj hEq
      -- of the faults of a graph, only a cycle is told as one
      cases fault with
      | cycle names => exact Fault.cyclicDependency.inj hEq
      | missing pairs => cases pairs <;> cases hEq
      | notFound root => cases hEq
  · rw [hTasks] at hEq ⊢
    cases hAll : whole.order name with
    | ok nodes =>
      rw [hAll] at hEq
      exact Except.ok.inj hEq
    | error fault =>
      rw [hAll] at hEq
      cases hEq

end Registry

namespace Bundling

/-- The graph of the three tasks is ordered as they are planned. -/
theorem plan_agrees_with_order_named :
    named.Complete ∧ named.contains "app" = true ∧ ∃ linked, named.graph.link = .ok linked ∧
      match named.plan "app", linked.order "app" with
      | .ok tasks, .ok nodes => tasks.map Task.name = nodes.map Node.name
      | .error (.cyclicDependency cycle), .error (.cycle cycle') => cycle = cycle'
      | _, _ => False := by
  have hComplete : named.Complete := by
    unfold Registry.Complete
    decide
  have hName : named.contains "app" = true := by decide
  exact ⟨hComplete, hName, Registry.plan_agrees_with_order hComplete hName⟩

end Bundling

end TaskMill
