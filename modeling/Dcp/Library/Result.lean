import Mathlib.Tactic

/-!
Fallible computations. These rules turn the equation "this computation succeeds with
that value" into a conjunction of what each of its steps demands.
-/

namespace Library
universe u v
variable {ε ε' : Type u} {α β : Type v}

@[simp] theorem bind_eq_ok_iff {x : Except ε α} {f : α → Except ε β} {b : β} :
    (x >>= f) = .ok b ↔ ∃ a, x = .ok a ∧ f a = .ok b := by
  cases x with
  | error e => simp [bind, Except.bind]
  | ok a => simp [bind, Except.bind]

/-- A check comes before the rest. -/
theorem check_bind_eq_ok_iff {β : Type} {x : Except ε Unit} {y : Except ε β} {b : β} :
    (x >>= fun _ => y) = .ok b ↔ x = .ok () ∧ y = .ok b := by
  cases x with
  | error e => exact iff_of_false (fun h => by cases h) (fun h => by cases h.1)
  | ok a => exact ⟨fun h => ⟨rfl, h⟩, fun h => h.2⟩

@[simp] theorem pure_eq_ok_iff {a b : α} : (pure a : Except ε α) = .ok b ↔ a = b := by
  simp [pure, Except.pure]

@[simp] theorem throw_ne_ok {e : ε} {b : α} : ¬ (throw e : Except ε α) = .ok b := by
  simp [throw, throwThe, MonadExceptOf.throw]

@[simp] theorem throw_bind {e : ε} {f : α → Except ε β} :
    ((throw e : Except ε α) >>= f) = .error e := rfl

@[simp] theorem throw_eq_error {e : ε} : (throw e : Except ε α) = .error e := rfl

/-- A guard that fails the computation succeeds only when it does not fire. -/
theorem guard_eq_ok_iff {p : Prop} [Decidable p] {x y : Except ε α} {b : α}
    (hx : ∀ b, x ≠ .ok b) : (if p then x else y) = .ok b ↔ ¬ p ∧ y = .ok b := by
  by_cases hp : p <;> simp [hp, hx]

@[simp] theorem guard_error_eq_ok_iff {p : Prop} [Decidable p] {e : ε} {y : Except ε α} {b : α} :
    (if p then .error e else y) = .ok b ↔ ¬ p ∧ y = .ok b :=
  guard_eq_ok_iff (by simp)

@[simp] theorem mapError_eq_ok_iff {f : ε → ε'} {x : Except ε α} {a : α} :
    x.mapError f = .ok a ↔ x = .ok a := by
  cases x <;> simp [Except.mapError]

/-- When a list of computations succeeds, each of them does, and their values are listed. -/
theorem mapM_ok {f : α → Except ε β} {xs : List α} {ys : List β} (h : xs.mapM f = .ok ys)
    {R : α → β → Prop} (hf : ∀ x y, f x = .ok y ↔ R x y) :
    (∀ x ∈ xs, ∃ y, R x y) ∧ ∀ y, y ∈ ys ↔ ∃ x ∈ xs, R x y := by
  induction xs generalizing ys with
  | nil =>
      cases h
      simp
  | cons x rest ih =>
      simp only [List.mapM_cons, bind_eq_ok_iff, pure_eq_ok_iff] at h
      obtain ⟨y, hy, ys, hys, rfl⟩ := h
      obtain ⟨hall, hmem⟩ := ih hys
      constructor
      · exact List.forall_mem_cons.mpr ⟨⟨y, (hf x y).mp hy⟩, hall⟩
      · intro y'
        rw [List.mem_cons, hmem, List.exists_mem_cons_iff, ← hf, hy, Except.ok.injEq, eq_comm]

end Library
