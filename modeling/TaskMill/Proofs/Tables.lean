import Mathlib.Data.List.Basic
/-!
# TaskMill — tables

Lists of keys with what belongs to them, of which the first entry under a key
counts.
-/

namespace TaskMill.Table

variable {α β : Type} [BEq α] [LawfulBEq α] {entries : List (α × β)} {key : α}

theorem lookup_eq_none_iff : entries.lookup key = none ↔ key ∉ entries.map Prod.fst := by
  rw [List.lookup_eq_none_iff]
  constructor
  · intro hNone hMem
    obtain ⟨entry, hEntry, rfl⟩ := List.mem_map.mp hMem
    simpa using hNone entry hEntry
  · intro hNotMem entry hEntry
    have hNe : entry.1 ≠ key := ne_of_mem_of_not_mem (List.mem_map_of_mem hEntry) hNotMem
    exact bne_iff_ne.mpr hNe.symm

theorem isSome_lookup_iff : (entries.lookup key).isSome = true ↔ key ∈ entries.map Prod.fst := by
  rw [← Option.ne_none_iff_isSome, ne_eq, lookup_eq_none_iff, not_not]

theorem lookup_eq_some_iff (hDistinct : (entries.map Prod.fst).Nodup) {value : β} :
    entries.lookup key = some value ↔ (key, value) ∈ entries := by
  induction entries with
  | nil => simp
  | cons entry rest ih =>
    obtain ⟨first, held⟩ := entry
    obtain ⟨hNew, hRest⟩ := List.nodup_cons.mp hDistinct
    by_cases hKey : key = first
    · subst hKey
      have hNotMem : (key, value) ∉ rest := fun hMem => hNew (List.mem_map.mpr ⟨_, hMem, rfl⟩)
      simp [hNotMem, eq_comm]
    · rw [List.lookup_cons, beq_eq_false_iff_ne.mpr hKey, List.mem_cons, ← ih hRest]
      simp [hKey]

/-- With distinct keys, the order of the entries means nothing. -/
theorem lookup_eq_of_perm {others : List (α × β)} (hPerm : entries.Perm others)
    (hDistinct : (entries.map Prod.fst).Nodup) : entries.lookup key = others.lookup key := by
  have hOthers : (others.map Prod.fst).Nodup := (hPerm.map Prod.fst).nodup_iff.mp hDistinct
  ext value
  rw [lookup_eq_some_iff hDistinct, lookup_eq_some_iff hOthers, hPerm.mem_iff]

-- ---------------------------------------------------------------------------
-- What is there of what could be
-- ---------------------------------------------------------------------------

/-- The entries of the keys that something belongs to. -/
def present (known : List (α × Option β)) : List (α × β) :=
  known.filterMap fun entry => entry.2.map fun value => (entry.1, value)

variable {known : List (α × Option β)}

omit [BEq α] [LawfulBEq α] in
theorem keys_present : ((present known).map Prod.fst).Sublist (known.map Prod.fst) := by
  induction known with
  | nil => exact .refl _
  | cons entry rest ih =>
    obtain ⟨first, value?⟩ := entry
    cases value? with
    | none => exact ih.cons first
    | some value => exact ih.cons_cons first

theorem lookup_present (hDistinct : (known.map Prod.fst).Nodup) :
    (present known).lookup key = (known.lookup key).join := by
  induction known with
  | nil => rfl
  | cons entry rest ih =>
    obtain ⟨first, value?⟩ := entry
    obtain ⟨hNew, hRest⟩ := List.nodup_cons.mp hDistinct
    have hAbsent : (present rest).lookup first = none :=
      lookup_eq_none_iff.mpr fun hMem => hNew (keys_present.subset hMem)
    by_cases hKey : key = first
    · subst hKey
      cases value? with
      | none => simpa [present] using hAbsent
      | some value => simp [present]
    · have hLookup := ih hRest
      rw [List.lookup_cons, beq_eq_false_iff_ne.mpr hKey, ← hLookup]
      cases value? with
      | none => rfl
      | some value => simp [present, List.lookup_cons, beq_eq_false_iff_ne.mpr hKey]

end TaskMill.Table
