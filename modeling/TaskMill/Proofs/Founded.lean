import Mathlib.Data.List.Chain
import Mathlib.Data.List.Nodup
import Mathlib.Logic.Relation
/-!
# TaskMill — founded lists and cycles

Two ways in which a list can stand to a relation "leads to".

A list is **founded** if every member comes after everything it leads to, so
that it can be worked off from the front. A **cycle** is a list that goes from
each member to the next and ends where it began. The two exclude each other:
what a member of a founded list leads to, over any number of steps, stands
before it.

## Results

* `Founded.mem_before` — what a member leads to stands before it.
* `Founded.irrefl` — no member of a founded list leads back to itself.
* `Founded.getLast?_eq` — a member that leads to all others is the last one.
* `IsCycle.exists_transGen` — on a cycle something leads back to itself.
-/

namespace TaskMill

open Relation (ReflTransGen TransGen)

variable {α β : Type} {R : α → α → Prop} {l : List α}

-- ---------------------------------------------------------------------------
-- Founded lists
-- ---------------------------------------------------------------------------

/-- Every member of a list comes after everything it leads to. -/
def Founded (R : α → α → Prop) (l : List α) : Prop :=
  ∀ before x after, l = before ++ x :: after → ∀ y, R x y → y ∈ before

namespace Founded

theorem nil : Founded R [] := by
  intro before x after h
  simp at h

/-- A founded list stays founded when something is put after all it leads
to. -/
theorem concat {x : α} (hl : Founded R l) (hx : ∀ y, R x y → y ∈ l) : Founded R (l ++ [x]) := by
  intro before a after h y hay
  -- the member is the new one, or it stood in the list before
  rcases List.eq_nil_or_concat after with rfl | ⟨rest, z, rfl⟩
  · obtain ⟨hBefore, hLast⟩ := List.append_inj' h rfl
    obtain rfl : x = a := by simpa using hLast
    exact hBefore ▸ hx y hay
  · have hEq : l ++ [x] = (before ++ a :: rest) ++ [z] := by simpa using h
    exact hl before a rest (List.append_inj' hEq rfl).1 y hay

/-- The front of a founded list is founded. -/
theorem front {later : List α} (h : Founded R (l ++ later)) : Founded R l := by
  intro before x after hl
  exact h before x (after ++ later) (by simp [hl])

/-- A founded list is founded for every relation that leads its members to no
more. -/
theorem mono {S : α → α → Prop} (h : Founded R l) (hMore : ∀ x ∈ l, ∀ y, S x y → R x y) :
    Founded S l := by
  intro before x after hl y hxy
  exact h before x after hl y (hMore x (by simp [hl]) y hxy)

/-- The image of a founded list is founded if every step from an image is the
image of a step. -/
theorem map {S : β → β → Prop} {f : α → β} (h : Founded R l)
    (hStep : ∀ x ∈ l, ∀ z, S (f x) z → ∃ y, R x y ∧ f y = z) : Founded S (l.map f) := by
  intro before b after hl z hbz
  obtain ⟨front, back, rfl, rfl, hBack⟩ := List.map_eq_append_iff.mp hl
  obtain ⟨x, rest, rfl, rfl, rfl⟩ := List.map_eq_cons_iff.mp hBack
  obtain ⟨y, hxy, rfl⟩ := hStep x (by simp) z hbz
  exact List.mem_map_of_mem (h front x rest rfl y hxy)

/-- What a member leads to, over any number of steps, stands before it. -/
theorem mem_before (h : Founded R l) {x y : α} (hxy : TransGen R x y) :
    ∀ {before after}, l = before ++ x :: after → y ∈ before := by
  induction hxy with
  | single hxy => exact fun hl => h _ _ _ hl _ hxy
  | tail _ hyz ih =>
    -- what comes before something that stands before `x` does so too
    intro before after hl
    obtain ⟨front, back, hBefore⟩ := List.append_of_mem (ih hl)
    have hz := h front _ (back ++ x :: after) (by simp [hl, hBefore]) _ hyz
    exact hBefore ▸ List.mem_append_left _ hz

/-- A founded list holds everything that its members lead to. -/
theorem closed (h : Founded R l) {x y : α} (hx : x ∈ l) (hxy : ReflTransGen R x y) : y ∈ l := by
  rcases Relation.reflTransGen_iff_eq_or_transGen.mp hxy with rfl | hxy
  · exact hx
  · obtain ⟨before, after, hl⟩ := List.append_of_mem hx
    exact hl ▸ List.mem_append_left _ (h.mem_before hxy hl)

/-- No member of a founded list leads back to itself. -/
theorem irrefl (h : Founded R l) (hNodup : l.Nodup) {x : α} (hx : x ∈ l) : ¬ TransGen R x x := by
  intro hxx
  obtain ⟨before, after, rfl⟩ := List.append_of_mem hx
  have hMem := h.mem_before hxx rfl
  exact List.disjoint_of_nodup_append hNodup hMem List.mem_cons_self

/-- A member that leads to all others is the last one. -/
theorem getLast?_eq (h : Founded R l) (hNodup : l.Nodup) {root : α} (hRoot : root ∈ l)
    (hAll : ∀ x ∈ l, ReflTransGen R root x) : l.getLast? = some root := by
  obtain ⟨before, after, rfl⟩ := List.append_of_mem hRoot
  rcases after with _ | ⟨x, rest⟩
  · simp
  · -- a member after the root would also stand before it
    have hNe : x ≠ root := by
      rintro rfl
      simp [List.nodup_append] at hNodup
    have hx := h.mem_before ((Relation.reflTransGen_iff_eq_or_transGen.mp
      (hAll x (by simp))).resolve_left hNe) rfl
    exact absurd (by simp) (List.disjoint_of_nodup_append hNodup hx)

end Founded

-- ---------------------------------------------------------------------------
-- Cycles
-- ---------------------------------------------------------------------------

/-- A list that goes from each member to the next, ends where it began, and
comes to nothing else twice. -/
structure IsCycle (R : α → α → Prop) (c : List α) : Prop where
  long    : 2 ≤ c.length
  closes  : c.head? = c.getLast?
  simple  : c.dropLast.Nodup
  chained : c.IsChain R

/-- On a chain, the first member leads to every other one. -/
theorem transGen_of_isChain {a : α} : ∀ {rest : List α},
    (a :: rest).IsChain R → ∀ b ∈ rest, TransGen R a b := by
  intro rest
  induction rest generalizing a with
  | nil => simp
  | cons x rest ih =>
    intro hChain b hb
    obtain ⟨hax, hRest⟩ := List.isChain_cons_cons.mp hChain
    rcases List.mem_cons.mp hb with rfl | hb
    · exact .single hax
    · exact .head hax (ih hRest b hb)

namespace IsCycle

/-- On a cycle something leads back to itself. -/
theorem exists_transGen {c : List α} (h : IsCycle R c) : ∃ x ∈ c, TransGen R x x := by
  rcases c with _ | ⟨a, _ | ⟨b, rest⟩⟩
  · simpa using h.long
  · simpa using h.long
  · have hLast : (b :: rest).getLast? = some a := by
      simpa [List.getLast?_cons_cons] using h.closes.symm
    exact ⟨a, by simp, transGen_of_isChain h.chained a (List.mem_of_getLast? hLast)⟩

/-- The image of a cycle under a map that keeps its steps and its members
apart. -/
theorem map {S : β → β → Prop} {c : List α} (h : IsCycle R c) {f : α → β}
    (hStep : ∀ x ∈ c, ∀ y ∈ c, R x y → S (f x) (f y))
    (hInj : ∀ x ∈ c, ∀ y ∈ c, f x = f y → x = y) : IsCycle S (c.map f) where
  long := by simpa using h.long
  closes := by rw [List.head?_map, List.getLast?_map, h.closes]
  simple := by
    rw [← List.map_dropLast]
    refine (List.nodup_map_iff_inj_on h.simple).mpr ?_
    intro x hx y hy
    exact hInj x (c.dropLast_subset hx) y (c.dropLast_subset hy)
  chained := by
    rw [List.isChain_map]
    exact h.chained.imp_of_mem_imp fun x y hx hy hxy => hStep x hx y hy hxy

end IsCycle

end TaskMill
