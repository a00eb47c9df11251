import Mathlib.Data.List.Nodup
import TaskMill.Proofs.Fallible
import TaskMill.Proofs.Tables
import TaskMill.TaskFile.Schema
/-!
# TaskMill — reading tables of known keys

What a table of a schema is read as has a **slot** for each known key (`Toml.Slot`).
An entry of the table sets the slot of its key and no other (`Shape.HasSlots`). So
the order of the entries means nothing: each slot is read from what stands under its
key, and is left as it was at first if there is nothing.

## Results

* `Shape.HasSlots.enter_eq_ok_iff` — what comes of taking one entry.
* `Shape.HasSlots.ofEntries_eq_ok_iff` — what comes of reading a table.
* `Shape.known_of_ofEntries` — a table with an unknown key is not read.
-/

namespace TaskMill.Toml

-- ---------------------------------------------------------------------------
-- Slots
-- ---------------------------------------------------------------------------

/-- A slot of what a table is read as. -/
structure Slot (α : Type) where
  /-- The key that the slot is read from. -/
  key : String
  Value : Type
  /-- What the slot is without the key. -/
  absent : Value
  read : Toml → Except ShapeError Value
  get : α → Value
  set : Value → α → α

/-- A slot that may be missing. -/
def Slot.optional {α β : Type} (key : String) (read : Toml → Except ShapeError β)
    (get : α → Option β) (set : Option β → α → α) : Slot α :=
  ⟨key, Option β, none, fun v => some <$> read v, get, set⟩

/-- A slot that is a list. -/
def Slot.list {α β : Type} (key : String) (read : Toml → Except ShapeError β)
    (get : α → List β) (set : List β → α → α) : Slot α :=
  ⟨key, List β, [], asList read, get, set⟩

/-- What stands under a key, if anything, gives the slot its value. -/
def Slot.Says {α : Type} (f : Slot α) (a : α) : Option Toml → Prop
  | none => f.get a = f.absent
  | some v => f.read v = .ok (f.get a)

section Says

variable {α β : Type} {read : Toml → Except ShapeError β} {encode : β → Toml} {key : String}
  {a : α} {found : Option Toml}

theorem Slot.says_optional (hEncode : ∀ v x, read v = .ok x ↔ v = encode x)
    {get : α → Option β} {set : Option β → α → α} :
    (Slot.optional key read get set).Says a found ↔ found = (get a).map encode := by
  cases found with
  | none =>
    show get a = none ↔ _
    rw [eq_comm (a := none), Option.map_eq_none_iff]
  | some v =>
    show some <$> read v = .ok (get a) ↔ _
    cases hValue : get a with
    | none => cases read v <;> simp
    | some x =>
      rw [Option.map_some, Option.some_inj, ← hEncode]
      cases read v <;> simp

theorem asList_eq_ok_iff {v : Toml} {items : List β} : asList read v = .ok items ↔
    ∃ written, v = .array written ∧ List.Forall₂ (fun w x => read w = .ok x) written items := by
  cases v with
  | array written => simp [asList, mapM_eq_ok_iff]
  | _ => simp [asList]

theorem Slot.says_list (hEncode : ∀ v x, read v = .ok x ↔ v = encode x)
    {get : α → List β} {set : List β → α → α} :
    (Slot.list key read get set).Says a found ↔
      found = some (.array ((get a).map encode)) ∨ get a = [] ∧ found = none := by
  cases found with
  | none => simp [Slot.Says, Slot.list]
  | some v =>
    show asList read v = .ok (get a) ↔ _
    simp only [asList_eq_ok_iff, hEncode]
    simp [← List.forall₂_map_right_iff, eq_comm]

end Says

theorem Slot.Says.unique {α : Type} {f : Slot α} {a b : α} {found : Option Toml}
    (h : f.Says a found) (h' : f.Says b found) : f.get a = f.get b := by
  cases found with
  | none => exact h.trans h'.symm
  | some v => exact Except.ok.inj (h.symm.trans h')

/-- What a table of a shape is read as consists of slots, one for each key. -/
structure Shape.HasSlots {α : Type} (shape : Shape α) (start : α) (slots : List (Slot α)) :
    Prop where
  keys     : shape.keys = slots.map Slot.key
  distinct : (slots.map Slot.key).Nodup
  start    : ∀ f ∈ slots, f.get start = f.absent
  add      : ∀ f ∈ slots, ∀ v a, shape.add f.key v a = f.read v >>= fun x => pure (f.set x a)
  get_set  : ∀ f ∈ slots, ∀ x a, f.get (f.set x a) = x
  others   : ∀ f ∈ slots, ∀ g ∈ slots, g.key ≠ f.key → ∀ x a, g.get (f.set x a) = g.get a
  ext      : ∀ a b, (∀ f ∈ slots, f.get a = f.get b) → a = b

namespace Shape

variable {α : Type} {shape : Shape α} {start a b : α} {slots : List (Slot α)} {f : Slot α}
  {entries : List (String × Toml)} {v : Toml}

-- ---------------------------------------------------------------------------
-- Taking entries
-- ---------------------------------------------------------------------------

/-- Takes an entry of a table. -/
def enter (shape : Shape α) (a : α) (entry : String × Toml) : Except ShapeError α :=
  if entry.1 ∈ shape.keys then shape.add entry.1 entry.2 a
  else .error (.unknownField entry.1 shape.keys)

theorem ofEntries_eq_foldlM (shape : Shape α) (start : α) (entries : List (String × Toml)) :
    shape.ofEntries start entries = (sortedEntries entries).foldlM shape.enter start := rfl

theorem perm_sortedEntries (entries : List (String × Toml)) :
    (sortedEntries entries).Perm entries := List.mergeSort_perm entries _

/-- A table with an unknown key is not read. -/
theorem known_of_ofEntries (h : shape.ofEntries start entries = .ok a) :
    ∀ key ∈ entries.map Prod.fst, key ∈ shape.keys := by
  intro key hKey
  rw [ofEntries_eq_foldlM] at h
  obtain ⟨⟨_, v⟩, hEntry, rfl⟩ :=
    List.mem_map.mp (((perm_sortedEntries entries).map Prod.fst).mem_iff.mpr hKey)
  obtain ⟨before, after, hEnter⟩ := exists_of_foldlM_eq_ok h hEntry
  unfold enter at hEnter
  split_ifs at hEnter with hKnown
  exact hKnown

/-- A table must also have the keys that are needed. -/
theorem read_table_eq_ok_iff {needed : List String} :
    shape.read start needed (.table entries) = .ok a ↔
      shape.ofEntries start entries = .ok a ∧ ∀ key ∈ needed, key ∈ entries.map Prod.fst := by
  have hNeeds : (needed.find? fun key => (entries.lookup key).isNone) = none ↔
      ∀ key ∈ needed, key ∈ entries.map Prod.fst := by
    simp [List.find?_eq_none, ← Table.isSome_lookup_iff]
  rw [← hNeeds]
  simp only [Shape.read]
  cases shape.ofEntries start entries with
  | error e => simp [bind, Except.bind]
  | ok b =>
    simp only [bind, Except.bind]
    cases needed.find? fun key => (entries.lookup key).isNone <;> simp

namespace HasSlots

variable (hSlots : shape.HasSlots start slots)

include hSlots

theorem eq_of_key_eq {g : Slot α} (hf : f ∈ slots) (hg : g ∈ slots) (hKey : f.key = g.key) :
    f = g :=
  List.inj_on_of_nodup_map hSlots.distinct hf hg hKey

/-- **An entry sets the slot of its key** to what is read there. -/
theorem enter_eq_ok_iff {entry : String × Toml} : shape.enter a entry = .ok b ↔
    ∃ f ∈ slots, f.key = entry.1 ∧ ∃ x, f.read entry.2 = .ok x ∧ f.set x a = b := by
  obtain ⟨key, v⟩ := entry
  unfold enter
  rw [hSlots.keys]
  constructor
  · intro h
    split_ifs at h with hKnown
    obtain ⟨f, hf, rfl⟩ := List.mem_map.mp hKnown
    rw [hSlots.add f hf] at h
    obtain ⟨x, hRead, hSet⟩ := Except.bind_eq_ok h
    exact ⟨f, hf, rfl, x, hRead, Except.ok.inj hSet⟩
  · rintro ⟨f, hf, rfl, x, hRead, hSet⟩
    rw [if_pos (List.mem_map_of_mem hf), hSlots.add f hf, hRead, ← hSet]
    rfl

/-- Whatever stands under the key of a slot can be read. -/
theorem exists_read_of_ofEntries (hf : f ∈ slots) (h : shape.ofEntries start entries = .ok a)
    (hEntry : (f.key, v) ∈ entries) : ∃ x, f.read v = .ok x := by
  rw [ofEntries_eq_foldlM] at h
  have hMem := (perm_sortedEntries entries).mem_iff.mpr hEntry
  obtain ⟨before, after, hEnter⟩ := exists_of_foldlM_eq_ok h hMem
  obtain ⟨g, hg, hOwn, x, hRead, -⟩ := hSlots.enter_eq_ok_iff.mp hEnter
  obtain rfl := hSlots.eq_of_key_eq hg hf hOwn
  exact ⟨x, hRead⟩

theorem get_of_foldlM (hf : f ∈ slots) (hKey : f.key ∉ entries.map Prod.fst)
    (h : entries.foldlM shape.enter a = .ok b) : f.get b = f.get a := by
  induction entries generalizing a with
  | nil =>
    obtain rfl := Except.ok.inj h
    rfl
  | cons entry rest ih =>
    rw [List.foldlM_cons] at h
    obtain ⟨next, hEnter, hRest⟩ := Except.bind_eq_ok h
    obtain ⟨g, hg, hOwn, x, -, rfl⟩ := hSlots.enter_eq_ok_iff.mp hEnter
    simp only [List.map_cons, List.mem_cons, not_or] at hKey
    rw [ih hKey.2 hRest]
    exact hSlots.others g hg f hf (by rw [hOwn]; exact hKey.1) x a

theorem read_of_foldlM (hDistinct : (entries.map Prod.fst).Nodup) (hf : f ∈ slots)
    (h : entries.foldlM shape.enter a = .ok b) (hEntry : (f.key, v) ∈ entries) :
    f.read v = .ok (f.get b) := by
  induction entries generalizing a with
  | nil => cases hEntry
  | cons entry rest ih =>
    rw [List.foldlM_cons] at h
    obtain ⟨next, hEnter, hRest⟩ := Except.bind_eq_ok h
    obtain ⟨hNew, hOthers⟩ := List.nodup_cons.mp hDistinct
    rcases List.mem_cons.mp hEntry with rfl | hLater
    · obtain ⟨g, hg, hOwn, x, hRead, rfl⟩ := hSlots.enter_eq_ok_iff.mp hEnter
      obtain rfl := hSlots.eq_of_key_eq hg hf hOwn
      rw [hSlots.get_of_foldlM hf hNew hRest, hSlots.get_set g hg, hRead]
    · exact ih hOthers hRest hLater

/-- What gives each slot a value can be read. -/
theorem exists_foldlM (hSaid : ∀ entry ∈ entries, ∃ f ∈ slots, f.key = entry.1 ∧
    ∃ x, f.read entry.2 = .ok x) (a : α) : ∃ b, entries.foldlM shape.enter a = .ok b := by
  induction entries generalizing a with
  | nil => exact ⟨a, rfl⟩
  | cons entry rest ih =>
    obtain ⟨f, hf, hKey, x, hRead⟩ := hSaid entry List.mem_cons_self
    have hEnter : shape.enter a entry = .ok (f.set x a) :=
      hSlots.enter_eq_ok_iff.mpr ⟨f, hf, hKey, x, hRead, rfl⟩
    rw [List.foldlM_cons, hEnter]
    exact ih (fun later hLater => hSaid later (List.mem_cons_of_mem _ hLater)) (f.set x a)

-- ---------------------------------------------------------------------------
-- Reading tables
-- ---------------------------------------------------------------------------

theorem says_of_ofEntries (hDistinct : (entries.map Prod.fst).Nodup)
    (h : shape.ofEntries start entries = .ok a) :
    ∀ f ∈ slots, f.Says a (entries.lookup f.key) := by
  have hSorted := perm_sortedEntries entries
  have hDistinct' : ((sortedEntries entries).map Prod.fst).Nodup :=
    (hSorted.map Prod.fst).nodup_iff.mpr hDistinct
  rw [ofEntries_eq_foldlM] at h
  intro f hf
  rw [← Table.lookup_eq_of_perm hSorted hDistinct']
  cases hFound : (sortedEntries entries).lookup f.key with
  | none =>
    have hKey := Table.lookup_eq_none_iff.mp hFound
    exact (hSlots.get_of_foldlM hf hKey h).trans (hSlots.start f hf)
  | some v =>
    have hEntry := (Table.lookup_eq_some_iff hDistinct').mp hFound
    exact hSlots.read_of_foldlM hDistinct' hf h hEntry

/-- **A table with distinct keys is read** if all of them are known and every slot gets
its value from what stands under its key. -/
theorem ofEntries_eq_ok_iff (hDistinct : (entries.map Prod.fst).Nodup) :
    shape.ofEntries start entries = .ok a ↔
      (∀ key ∈ entries.map Prod.fst, key ∈ shape.keys) ∧
        ∀ f ∈ slots, f.Says a (entries.lookup f.key) := by
  constructor
  · intro h
    exact ⟨known_of_ofEntries h, hSlots.says_of_ofEntries hDistinct h⟩
  · rintro ⟨hKnown, hSays⟩
    -- something is read, and its slots get the same values
    obtain ⟨b, hb⟩ : ∃ b, shape.ofEntries start entries = .ok b := by
      refine hSlots.exists_foldlM (fun entry hEntry => ?_) start
      have hMem := (perm_sortedEntries entries).mem_iff.mp hEntry
      have hKey := hKnown entry.1 (List.mem_map_of_mem hMem)
      rw [hSlots.keys] at hKey
      obtain ⟨f, hf, hOwn⟩ := List.mem_map.mp hKey
      have hSaid := hSays f hf
      rw [hOwn, (Table.lookup_eq_some_iff hDistinct).mpr hMem] at hSaid
      exact ⟨f, hf, hOwn, f.get a, hSaid⟩
    have hSaid := hSlots.says_of_ofEntries hDistinct hb
    rw [hb, hSlots.ext b a fun f hf => (hSaid f hf).unique (hSays f hf)]

end HasSlots

end Shape

end TaskMill.Toml
