import Mathlib.Data.List.Forall2
/-!
# TaskMill — computations that can fail

A computation that came to something has come to something at each of its steps;
and what is done to a result afterwards tells whether there was one.
-/

namespace TaskMill

theorem Except.bind_eq_ok {ε α β : Type} {x : Except ε α} {f : α → Except ε β} {b : β}
    (hBind : x >>= f = .ok b) : ∃ a, x = .ok a ∧ f a = .ok b := by
  cases x with
  | error fault => cases hBind
  | ok a => exact ⟨a, rfl, hBind⟩

theorem Except.bind_eq_error_iff {ε α β : Type} {x : Except ε α} {f : α → Except ε β} {e : ε} :
    x >>= f = .error e ↔ x = .error e ∨ ∃ a, x = .ok a ∧ f a = .error e := by
  cases x with
  | error fault => simp [bind, Except.bind]
  | ok a => simp [bind, Except.bind]

theorem toOption_eq_some_iff {ε α : Type} {x : Except ε α} {a : α} :
    x.toOption = some a ↔ x = .ok a := by
  cases x <;> simp [Except.toOption]

theorem map_eq_ok_iff {α β ε : Type} {x : Except ε α} {f : α → β} {b : β} :
    x.map f = .ok b ↔ ∃ a, x = .ok a ∧ f a = b := by
  cases x <;> simp [Except.map]

theorem map_eq_error_iff {α β ε : Type} {x : Except ε α} {f : α → β} {e : ε} :
    x.map f = .error e ↔ x = .error e := by
  cases x <;> simp [Except.map]

theorem mapError_eq_ok_iff {α ε δ : Type} {x : Except ε α} {f : ε → δ} {a : α} :
    x.mapError f = .ok a ↔ x = .ok a := by
  cases x <;> simp [Except.mapError]

theorem mapError_eq_error_iff {α ε δ : Type} {x : Except ε α} {f : ε → δ} {d : δ} :
    x.mapError f = .error d ↔ ∃ e, x = .error e ∧ f e = d := by
  cases x <;> simp [Except.mapError]

-- ---------------------------------------------------------------------------
-- One after the other
-- ---------------------------------------------------------------------------

variable {α β ε : Type}

/-- What has gone through has gone through for each element. -/
theorem exists_of_foldlM_eq_ok {f : β → α → Except ε β} {items : List α} {b b' : β}
    (h : items.foldlM f b = .ok b') {a : α} (ha : a ∈ items) :
    ∃ before after, f before a = .ok after := by
  induction items generalizing b with
  | nil => cases ha
  | cons first rest ih =>
    rw [List.foldlM_cons] at h
    obtain ⟨next, hFirst, hRest⟩ := Except.bind_eq_ok h
    rcases List.mem_cons.mp ha with rfl | hLater
    · exact ⟨b, next, hFirst⟩
    · exact ih hRest hLater

/-- What has failed has failed at one element, after all those before it have gone
through. -/
theorem exists_of_foldlM_eq_error {f : β → α → Except ε β} {items : List α} {b : β} {e : ε}
    (h : items.foldlM f b = .error e) :
    ∃ passed a later reached, items = passed ++ a :: later ∧
      passed.foldlM f b = .ok reached ∧ f reached a = .error e := by
  induction items generalizing b with
  | nil => cases h
  | cons first rest ih =>
    rw [List.foldlM_cons] at h
    rcases Except.bind_eq_error_iff.mp h with hFirst | ⟨next, hFirst, hRest⟩
    · exact ⟨[], first, rest, b, rfl, rfl, hFirst⟩
    · obtain ⟨passed, a, later, reached, hSplit, hPassed, hAt⟩ := ih hRest
      refine ⟨first :: passed, a, later, reached, by rw [hSplit, List.cons_append], ?_, hAt⟩
      rw [List.foldlM_cons, hFirst]
      exact hPassed

theorem mapM_eq_ok_iff {f : α → Except ε β} {items : List α} {results : List β} :
    items.mapM f = .ok results ↔ List.Forall₂ (fun a b => f a = .ok b) items results := by
  induction items generalizing results with
  | nil => simp [pure, Except.pure, List.forall₂_nil_left_iff, eq_comm]
  | cons first rest ih =>
    rw [List.mapM_cons]
    constructor
    · intro h
      obtain ⟨b, hFirst, h⟩ := Except.bind_eq_ok h
      obtain ⟨later, hRest, h⟩ := Except.bind_eq_ok h
      obtain rfl := Except.ok.inj h
      exact .cons hFirst (ih.mp hRest)
    · rintro (_ | ⟨hFirst, hRest⟩)
      rw [hFirst, ih.mpr hRest]
      rfl

theorem exists_of_forall₂ {R : α → β → Prop} {items : List α} {others : List β}
    (h : List.Forall₂ R items others) {a : α} (ha : a ∈ items) : ∃ b, R a b := by
  induction h with
  | nil => cases ha
  | cons hFirst _ ih =>
    rcases List.mem_cons.mp ha with rfl | hLater
    · exact ⟨_, hFirst⟩
    · exact ih hLater

end TaskMill
