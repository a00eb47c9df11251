import TaskMill.Graph.Basic
/-!
# TaskMill — gathering a closure

A graph extended by one requested name and everything it depends on, looked up
in a **catalogue** of named data. How a name is added is a parameter, as there is
more than one way to keep a graph. Names are looked up depth first, dependencies
in declared order, each name once; a name that the catalogue does not know is a
leaf, reported with its dependent when the graph is linked.
-/

namespace TaskMill.Graph

variable {α γ : Type}

/-- What gathering a closure came to. -/
structure Gathered (γ : Type) where
  /-- What the names found have been added to. -/
  graph : γ
  /-- The names looked up, in order. -/
  asked : List String

/-- How many entries of a catalogue have not been asked for. -/
def unasked (catalogue : List (String × α)) (asked : List String) : Nat :=
  catalogue.countP fun entry => entry.1 ∉ asked

/-- Asking for more names leaves no more of them. -/
theorem unasked_append_le (catalogue : List (String × α)) (asked more : List String) :
    unasked catalogue (asked ++ more) ≤ unasked catalogue asked := by
  apply List.countP_mono_left
  intro entry _ h
  simp_all

/-- Asking for the name of an entry leaves fewer of them. -/
theorem unasked_lt_of_lookup {catalogue : List (String × α)} {asked : List String}
    {name : String} {data : α} (hNew : name ∉ asked) (hFound : catalogue.lookup name = some data) :
    unasked catalogue (asked ++ [name]) < unasked catalogue asked := by
  induction catalogue with
  | nil => simp at hFound
  | cons entry rest ih =>
    obtain ⟨key, value⟩ := entry
    have hRest := unasked_append_le rest asked [name]
    unfold unasked at ih hRest ⊢
    rw [List.countP_cons, List.countP_cons]
    by_cases hKey : name = key
    · subst hKey
      rw [if_neg (by simp), if_pos (by simpa using hNew)]
      omega
    · rw [List.lookup_cons, beq_eq_false_iff_ne.2 hKey] at hFound
      have hLess := ih hFound
      have hSame : decide ((key, value).1 ∉ asked ++ [name]) = decide ((key, value).1 ∉ asked) := by
        simp [Ne.symm hKey]
      rw [hSame]
      omega

variable [Dependent α]

/-- Looks up the names of `agenda`, first one first, and what they depend on,
except those already asked for. What is found is added by `add`. -/
def gather (add : γ → String → α → γ) (catalogue : List (String × α)) (agenda : List String)
    (found : Gathered γ) : Gathered γ :=
  match agenda with
  | [] => found
  | name :: later =>
    if _hNew : name ∈ found.asked then gather add catalogue later found
    else
      let asked := found.asked ++ [name]
      match _hFound : catalogue.lookup name with
      | none => gather add catalogue later { found with asked }
      | some data =>
        gather add catalogue ((dependencies data).filter (· ∉ asked) ++ later)
          ⟨add found.graph name data, asked⟩
termination_by (unasked catalogue found.asked, agenda.length)
decreasing_by
  · exact .right _ (by simp)
  · rcases Nat.lt_or_eq_of_le (unasked_append_le catalogue found.asked [name]) with h | h
    · exact .left _ _ h
    · rw [h]; exact .right _ (by simp)
  · exact .left _ _ (unasked_lt_of_lookup _hNew _hFound)

/-- What extending a graph by a closure came to: the graph as it is left, the
names looked up in order, and what went wrong. -/
structure Extended (γ : Type) where
  graph : γ
  asked : List String
  fault : Option GraphFault

/-- Extends `g` by `root` and everything it depends on, by `add`, and then joins
what has been added, by `link`. A `root` that the catalogue does not know leaves
`g` as it was; a dependency that it does not know leaves what has been added, but
joins nothing. -/
def extendBy (add : γ → String → α → γ) (link : γ → Except GraphFault γ) (g : γ)
    (catalogue : List (String × α)) (root : String) : Extended γ :=
  if (catalogue.lookup root).isNone then ⟨g, [root], some (.notFound root)⟩
  else
    let found := gather add catalogue [root] ⟨g, []⟩
    match link found.graph with
    | .error fault => ⟨found.graph, found.asked, some fault⟩
    | .ok linked => ⟨linked, found.asked, none⟩

/-- Extends a graph by `root` and everything it depends on, and links it. -/
def extend (g : Graph α) (catalogue : List (String × α)) (root : String) : Extended (Graph α) :=
  extendBy add link g catalogue root

end TaskMill.Graph
