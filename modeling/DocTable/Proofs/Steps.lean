import Mathlib.Data.List.Forall2

/-!
# Steps that may fail

A chain of steps in `Except` succeeds exactly when each step does, and fails with the error of its
first step that does not.  These facts open such a chain from the outside in, so that no other proof
unfolds `bind`, `map` or `mapM`; `foldlM_keeps` is the induction on a run of steps.
-/

set_option autoImplicit false

namespace DocTable.Steps

variable {ε α β : Type}

@[simp] theorem ok_bind (a : α) (f : α → Except ε β) : (Except.ok a >>= f) = f a := rfl

@[simp] theorem error_bind (error : ε) (f : α → Except ε β) :
    (Except.error error >>= f) = .error error := rfl

@[simp] theorem map_ok (f : α → β) (a : α) : f <$> (Except.ok a : Except ε α) = .ok (f a) := rfl

@[simp] theorem map_error (f : α → β) (error : ε) :
    f <$> (Except.error error : Except ε α) = .error error := rfl

theorem bind_eq_ok {x : Except ε α} {f : α → Except ε β} {b : β} :
    x >>= f = .ok b ↔ ∃ a, x = .ok a ∧ f a = .ok b := by
  cases x <;> simp [bind, Except.bind]

theorem map_eq_ok {f : α → β} {x : Except ε α} {b : β} :
    f <$> x = .ok b ↔ ∃ a, x = .ok a ∧ f a = b := by
  cases x <;> simp [Functor.map, Except.map]

theorem bind_eq_error {x : Except ε α} {f : α → Except ε β} {error : ε} :
    x >>= f = .error error ↔ x = .error error ∨ ∃ a, x = .ok a ∧ f a = .error error := by
  cases x <;> simp [bind, Except.bind]

theorem map_eq_error {f : α → β} {x : Except ε α} {error : ε} :
    f <$> x = .error error ↔ x = .error error := by
  cases x <;> simp [Functor.map, Except.map]

theorem mapM_eq_ok {f : α → Except ε β} {xs : List α} {ys : List β} :
    xs.mapM f = .ok ys ↔ List.Forall₂ (fun x y => f x = .ok y) xs ys := by
  induction xs generalizing ys with
  | nil =>
    rw [List.mapM_nil, List.forall₂_nil_left_iff]
    exact ⟨fun h => (Except.ok.inj h).symm, fun h => h ▸ rfl⟩
  | cons x xs ih =>
    rw [List.mapM_cons, bind_eq_ok]
    constructor
    · rintro ⟨y, hy, h⟩
      obtain ⟨rest, hrest, h⟩ := bind_eq_ok.1 h
      cases h
      exact .cons hy (ih.1 hrest)
    · rintro (_ | ⟨hy, hrest⟩)
      exact ⟨_, hy, bind_eq_ok.2 ⟨_, ih.2 hrest, rfl⟩⟩

/-- The error of a list of steps is that of one of them. -/
theorem exists_of_mapM_eq_error {f : α → Except ε β} {xs : List α} {error : ε}
    (h : xs.mapM f = .error error) : ∃ x ∈ xs, f x = .error error := by
  induction xs with
  | nil =>
    rw [List.mapM_nil] at h
    cases h
  | cons x xs ih =>
    rw [List.mapM_cons] at h
    rcases bind_eq_error.1 h with hx | ⟨y, -, hrest⟩
    · exact ⟨x, List.mem_cons_self, hx⟩
    · rcases bind_eq_error.1 hrest with hrest | ⟨ys, -, hdone⟩
      · obtain ⟨x', hmem, hx'⟩ := ih hrest
        exact ⟨x', List.mem_cons_of_mem x hmem, hx'⟩
      · cases hdone

/-- A run that fails does so at one of its steps, and what is before that step does not. -/
theorem exists_of_foldlM_eq_error {step : β → α → Except ε β} {items : List α} {b : β} {error : ε}
    (h : items.foldlM step b = .error error) :
    ∃ before a after mid, items = before ++ a :: after ∧ before.foldlM step b = .ok mid ∧
      step mid a = .error error := by
  induction items generalizing b with
  | nil => cases h
  | cons a items ih =>
    rw [List.foldlM_cons] at h
    rcases bind_eq_error.1 h with hstep | ⟨next, hnext, hrest⟩
    · exact ⟨[], a, items, b, rfl, rfl, hstep⟩
    · obtain ⟨before, a', after, mid, rfl, hbefore, hstep⟩ := ih hrest
      refine ⟨a :: before, a', after, mid, rfl, ?_, hstep⟩
      rw [List.foldlM_cons, hnext, ok_bind, hbefore]

/-- What every step keeps, a run keeps; `P` may speak of the items taken so far. -/
theorem foldlM_keeps (P : List α → β → Prop) {step : β → α → Except ε β}
    (hstep : ∀ done b a next, P done b → step b a = .ok next → P (done ++ [a]) next)
    (done : List α) {items : List α} {b last : β} (hb : P done b)
    (h : items.foldlM step b = .ok last) : P (done ++ items) last := by
  induction items generalizing done b with
  | nil =>
    cases h
    rwa [List.append_nil]
  | cons a items ih =>
    rw [List.foldlM_cons] at h
    obtain ⟨next, hnext, h⟩ := bind_eq_ok.1 h
    rw [List.append_cons]
    exact ih (done ++ [a]) (hstep done b a next hb hnext) h

/-- A run over images ends as the run over the items does, if each of its steps does. -/
theorem foldlM_map_eq_ok {γ : Type} {f : α → γ} {step : β → α → Except ε β}
    {imageStep : β → γ → Except ε β}
    (hstep : ∀ b a next, imageStep b (f a) = .ok next ↔ step b a = .ok next) {items : List α}
    {b last : β} :
    (items.map f).foldlM imageStep b = .ok last ↔ items.foldlM step b = .ok last := by
  induction items generalizing b with
  | nil => rfl
  | cons a items ih =>
    rw [List.map_cons, List.foldlM_cons, List.foldlM_cons, bind_eq_ok, bind_eq_ok]
    simp only [hstep, ih]

end DocTable.Steps
