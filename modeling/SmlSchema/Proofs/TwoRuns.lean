import Mathlib.Data.List.Forall2
import SmlSchema.Proofs.Result

/-! # Two runs compared

A computation may read two inputs that differ in what it should not look at. Then it gives the same
result for both or fails on both, though maybe for different reasons.
-/

namespace SmlSchema

variable {ε ε' α β γ δ : Type}

/-- Both computations give a result, and the results are related, or both fail. -/
inductive Together (R : α → β → Prop) : Except ε α → Except ε' β → Prop where
  | ok {a : α} {b : β} (h : R a b) : Together R (.ok a) (.ok b)
  | error {e : ε} {e' : ε'} : Together R (.error e) (.error e')

namespace Together

variable {R : α → β → Prop} {S : γ → δ → Prop} {x : Except ε α} {y : Except ε' β}

theorem refl (x : Except ε α) : Together Eq x x := by
  cases x with
  | ok a => exact .ok rfl
  | error e => exact .error

/-- Two computations give the same results. -/
theorem eq_iff {y : Except ε' α} : Together Eq x y ↔ ∀ a, x = .ok a ↔ y = .ok a := by
  constructor
  · intro h a
    cases h with
    | ok h => simp [h]
    | error => simp
  · intro h
    cases x with
    | ok a =>
        rw [(h a).mp rfl]
        exact .ok rfl
    | error e =>
        cases y with
        | ok b => cases (h b).mpr rfl
        | error e' => exact .error

/-- Runs that succeed together with equal values have the same optional value. -/
theorem toOption {y : Except ε' α} (h : Together Eq x y) : x.toOption = y.toOption := by
  cases h with
  | ok h => exact congrArg some h
  | error => rfl

/-- Runs stay together if their first parts do and each pair of related values goes on together. -/
theorem bind {f : α → Except ε γ} {g : β → Except ε' δ} (h : Together R x y)
    (hfg : ∀ a b, R a b → Together S (f a) (g b)) : Together S (x >>= f) (y >>= g) := by
  cases h with
  | ok h => exact hfg _ _ h
  | error => exact .error

/-- Runs stay together if their first parts give equal values and the rest goes on together. -/
theorem bind_eq {y : Except ε' α} {f : α → Except ε γ} {g : α → Except ε' δ} (h : Together Eq x y)
    (hfg : ∀ a, Together S (f a) (g a)) : Together S (x >>= f) (y >>= g) :=
  h.bind fun a _ heq => heq ▸ hfg a

/-- Runs over related items end together if every step does. -/
theorem foldlM {f : γ → α → Except ε γ} {g : γ → β → Except ε' γ} {xs : List α} {ys : List β}
    (h : List.Forall₂ (fun a b => ∀ c, Together Eq (f c a) (g c b)) xs ys) (c : γ) :
    Together Eq (xs.foldlM f c) (ys.foldlM g c) := by
  induction h generalizing c with
  | nil => exact .ok rfl
  | cons hstep _ ih =>
      rw [List.foldlM_cons, List.foldlM_cons]
      exact (hstep c).bind_eq ih

/-- Flaws of the document are errors of the whole. -/
theorem lift {x : Except Violation α} {y : Except Violation β} (h : Together R x y) :
    Together R (liftM x : Except Error α) (liftM y : Except Error β) := by
  cases h with
  | ok h => exact .ok h
  | error => exact .error

end Together

end SmlSchema
