import TaskMill.Graph.Closure
/-!
# TaskMill — closures gathered by a lookup

A closure is gathered by asking for names. A **lookup** may answer in the light of
the names that have been asked before (`Gathers`), and what is gathered may be any
thing that names can be added to. A gathering that ends has asked each name once,
so a catalogue of the answers does the same; and of a lookup that always gives the
same answers there is one gathering only, that of a catalogue that answers alike.

## Results

* `Graph.ExtendsBy.extendBy_eq` — what a lookup extends by, a catalogue does.
* `Graph.exists_extendsBy`, `Graph.ExtendsBy.eq_extendBy` — to extend by a catalogue
  is to ask a lookup, and to ask it comes to one thing only.
-/

namespace TaskMill.Graph

variable {α γ : Type}

/-- What is found under a name, which may depend on the names asked before. -/
def Lookup (α : Type) : Type := List String → String → Option α

/-- The lookup that knows the entries of a catalogue. -/
def Lookup.ofCatalogue (catalogue : List (String × α)) : Lookup α :=
  fun _ name => catalogue.lookup name

variable [Dependent α]

/-- Working off an agenda leads from what was found at first, by adding `adds`
in turn, to what was found at last. -/
inductive Gathers (add : γ → String → α → γ) (look : Lookup α) :
    List String → Gathered γ → List (String × α) → Gathered γ → Prop where
  | done (found : Gathered γ) : Gathers add look [] found [] found
  | again {name : String} {later : List String} {found last : Gathered γ}
      {adds : List (String × α)} (hOld : name ∈ found.asked)
      (hRest : Gathers add look later found adds last) :
      Gathers add look (name :: later) found adds last
  | leaf {name : String} {later : List String} {found last : Gathered γ}
      {adds : List (String × α)} (hNew : name ∉ found.asked) (hNone : look found.asked name = none)
      (hRest : Gathers add look later { found with asked := found.asked ++ [name] } adds last) :
      Gathers add look (name :: later) found adds last
  | known {name : String} {data : α} {later : List String} {found last : Gathered γ}
      {adds : List (String × α)} (hNew : name ∉ found.asked)
      (hSome : look found.asked name = some data)
      (hRest : Gathers add look ((dependencies data).filter (· ∉ found.asked ++ [name]) ++ later)
        ⟨add found.graph name data, found.asked ++ [name]⟩ adds last) :
      Gathers add look (name :: later) found ((name, data) :: adds) last

/-- Extending, by `add` and then `link`, with what a lookup finds beneath a root
comes to an end. -/
inductive ExtendsBy (add : γ → String → α → γ) (link : γ → Except GraphFault γ) (look : Lookup α)
    (g : γ) (root : String) : List (String × α) → Extended γ → Prop where
  | notFound (hNone : look [] root = none) :
      ExtendsBy add link look g root [] ⟨g, [root], some (.notFound root)⟩
  | refused {adds : List (String × α)} {found : Gathered γ} {fault : GraphFault} {data : α}
      (hSome : look [] root = some data) (hGathers : Gathers add look [root] ⟨g, []⟩ adds found)
      (hLink : link found.graph = .error fault) :
      ExtendsBy add link look g root adds ⟨found.graph, found.asked, some fault⟩
  | linked {adds : List (String × α)} {found : Gathered γ} {linked : γ} {data : α}
      (hSome : look [] root = some data) (hGathers : Gathers add look [root] ⟨g, []⟩ adds found)
      (hLink : link found.graph = .ok linked) :
      ExtendsBy add link look g root adds ⟨linked, found.asked, none⟩

variable {add : γ → String → α → γ} {link : γ → Except GraphFault γ} {look : Lookup α}
  {agenda : List String} {found last : Gathered γ} {adds catalogue : List (String × α)} {g : γ}
  {root : String} {e : Extended γ}

-- ---------------------------------------------------------------------------
-- Gathering step by step
-- ---------------------------------------------------------------------------

section Steps

variable {name : String} {later : List String} {data : α}

theorem gather_of_mem (hOld : name ∈ found.asked) :
    gather add catalogue (name :: later) found = gather add catalogue later found := by
  rw [gather, dif_pos hOld]

theorem gather_of_none (hNew : name ∉ found.asked) (hNone : catalogue.lookup name = none) :
    gather add catalogue (name :: later) found =
      gather add catalogue later { found with asked := found.asked ++ [name] } := by
  rw [gather, dif_neg hNew]
  split
  case h_1 => rfl
  case h_2 data hSome => simp [hNone] at hSome

theorem gather_of_some (hNew : name ∉ found.asked) (hSome : catalogue.lookup name = some data) :
    gather add catalogue (name :: later) found =
      gather add catalogue ((dependencies data).filter (· ∉ found.asked ++ [name]) ++ later)
        ⟨add found.graph name data, found.asked ++ [name]⟩ := by
  rw [gather, dif_neg hNew]
  split
  case h_1 hNone => simp [hSome] at hNone
  case h_2 data' hSome' =>
    obtain rfl := Option.some.inj (hSome.symm.trans hSome')
    rfl

end Steps

-- ---------------------------------------------------------------------------
-- Any lookup
-- ---------------------------------------------------------------------------

/-- Only names not asked for are added. -/
theorem Gathers.not_mem_asked (h : Gathers add look agenda found adds last) :
    ∀ name ∈ found.asked, adds.lookup name = none := by
  induction h with
  | done => exact fun _ _ => rfl
  | again _ _ ih => exact ih
  | leaf _ _ _ ih => exact fun name hMem => ih name (List.mem_append_left _ hMem)
  | known hNew _ _ ih =>
    intro name hMem
    rw [List.lookup_cons, beq_eq_false_iff_ne.mpr (ne_of_mem_of_not_mem hMem hNew)]
    exact ih name (List.mem_append_left _ hMem)

/-- **A catalogue of the answers finds the same as the lookup.** It may say
anything of the names that were asked before. -/
theorem Gathers.gather_eq (h : Gathers add look agenda found adds last)
    (hSame : ∀ name, name ∉ found.asked → catalogue.lookup name = adds.lookup name) :
    gather add catalogue agenda found = last := by
  induction h with
  | done => rw [gather]
  | again hOld _ ih =>
    rw [gather_of_mem hOld]
    exact ih hSame
  | leaf hNew _ hRest ih =>
    rw [gather_of_none hNew ((hSame _ hNew).trans (hRest.not_mem_asked _ (by simp)))]
    exact ih fun n hn => hSame n fun hMem => hn (List.mem_append_left _ hMem)
  | known hNew _ _ ih =>
    rw [gather_of_some hNew ((hSame _ hNew).trans List.lookup_cons_self)]
    refine ih fun n hn => ?_
    rw [List.mem_append, List.mem_singleton, not_or] at hn
    rw [hSame n hn.1, List.lookup_cons, beq_eq_false_iff_ne.mpr hn.2]

/-- A root that is known is the first name added. -/
theorem Gathers.lookup_root {data : α} (h : Gathers add look [root] ⟨g, []⟩ adds last)
    (hSome : look [] root = some data) : adds.lookup root = some data := by
  cases h with
  | again hOld _ => cases hOld
  | leaf _ hNone _ =>
    rw [hSome] at hNone
    cases hNone
  | known _ hSome' _ =>
    obtain rfl := Option.some.inj (hSome.symm.trans hSome')
    exact List.lookup_cons_self

/-- **What a lookup extends a graph by, a catalogue does**: that of the data
added. -/
theorem ExtendsBy.extendBy_eq (h : ExtendsBy add link look g root adds e) :
    extendBy add link g adds root = e := by
  unfold extendBy
  cases h with
  | notFound => rfl
  | refused hSome hGathers hLink =>
    rw [hGathers.lookup_root hSome, if_neg (by simp), hGathers.gather_eq fun _ _ => rfl]
    simp only [hLink]
  | linked hSome hGathers hLink =>
    rw [hGathers.lookup_root hSome, if_neg (by simp), hGathers.gather_eq fun _ _ => rfl]
    simp only [hLink]

/-- To gather is to add names in turn. -/
theorem Gathers.graph_eq (h : Gathers add look agenda found adds last) :
    last.graph = adds.foldl (fun g entry => add g entry.1 entry.2) found.graph := by
  induction h with
  | done => rfl
  | again _ _ ih => exact ih
  | leaf _ _ _ ih => exact ih
  | known _ _ _ ih => exact ih

-- ---------------------------------------------------------------------------
-- Lookups that always answer alike
-- ---------------------------------------------------------------------------

theorem exists_gathers_gather (add : γ → String → α → γ) (catalogue : List (String × α))
    (agenda : List String) (found : Gathered γ) :
    ∃ adds, Gathers add (.ofCatalogue catalogue) agenda found adds
      (gather add catalogue agenda found) := by
  fun_induction gather add catalogue agenda found with
  | case1 found => exact ⟨[], .done found⟩
  | case2 found name later hOld ih =>
    obtain ⟨adds, h⟩ := ih
    exact ⟨adds, .again hOld h⟩
  | case3 found name later hNew asked hNone ih =>
    obtain ⟨adds, h⟩ := ih
    exact ⟨adds, .leaf hNew hNone h⟩
  | case4 found name later hNew asked data hSome ih =>
    obtain ⟨adds, h⟩ := ih
    exact ⟨(name, data) :: adds, .known hNew hSome h⟩

/-- To extend by a catalogue is to ask a lookup, -/
theorem exists_extendsBy (add : γ → String → α → γ) (link : γ → Except GraphFault γ) (g : γ)
    (catalogue : List (String × α)) (root : String) :
    ∃ adds, ExtendsBy add link (.ofCatalogue catalogue) g root adds
      (extendBy add link g catalogue root) := by
  unfold extendBy
  split
  case isTrue hNone => exact ⟨[], .notFound (Option.isNone_iff_eq_none.mp hNone)⟩
  case isFalse hKnown =>
    obtain ⟨data, hSome⟩ := Option.ne_none_iff_exists'.mp (mt Option.isNone_iff_eq_none.mpr hKnown)
    obtain ⟨adds, hGathers⟩ := exists_gathers_gather add catalogue [root] ⟨g, []⟩
    refine ⟨adds, ?_⟩
    dsimp only
    split
    case h_1 fault hLink => exact .refused hSome hGathers hLink
    case h_2 linked hLink => exact .linked hSome hGathers hLink

/-- What is gathered by asking is what is gathered from the catalogue. -/
theorem Gathers.eq_gather (h : Gathers add (.ofCatalogue catalogue) agenda found adds last) :
    last = gather add catalogue agenda found := by
  induction h with
  | done => rw [gather]
  | again hOld _ ih => rwa [gather_of_mem hOld]
  | leaf hNew hNone _ ih => rwa [gather_of_none hNew hNone]
  | known hNew hSome _ ih => rwa [gather_of_some hNew hSome]

/-- and to ask it comes to one thing only. -/
theorem ExtendsBy.eq_extendBy (h : ExtendsBy add link (.ofCatalogue catalogue) g root adds e) :
    e = extendBy add link g catalogue root := by
  unfold extendBy
  cases h with
  | notFound hNone =>
    have hUnknown : catalogue.lookup root = none := hNone
    rw [hUnknown]
    rfl
  | refused hSome hGathers hLink =>
    have hKnown : catalogue.lookup root = _ := hSome
    rw [hKnown, if_neg (by simp), ← hGathers.eq_gather]
    simp only [hLink]
  | linked hSome hGathers hLink =>
    have hKnown : catalogue.lookup root = _ := hSome
    rw [hKnown, if_neg (by simp), ← hGathers.eq_gather]
    simp only [hLink]

end TaskMill.Graph
