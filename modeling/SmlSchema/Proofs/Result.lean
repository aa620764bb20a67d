import SmlSchema.Code.Entity

/-! # Results of computations that can fail -/

namespace SmlSchema

variable {ε ε' α β : Type}

@[simp] theorem ok_bind (a : α) (f : α → Except ε β) : (Except.ok a >>= f) = f a := rfl

@[simp] theorem error_bind (e : ε) (f : α → Except ε β) :
    ((Except.error e : Except ε α) >>= f) = .error e := rfl

@[simp] theorem pure_eq_ok (a : α) : (pure a : Except ε α) = .ok a := rfl

/-- A sequence succeeds if both of its parts do. -/
theorem bind_eq_ok {x : Except ε α} {f : α → Except ε β} {b : β} :
    x >>= f = .ok b ↔ ∃ a, x = .ok a ∧ f a = .ok b := by
  cases x with
  | error e => simp
  | ok a => simp

/-- A mapped result is a success exactly if the result is one. -/
@[simp] theorem map_eq_ok {x : Except ε α} {f : α → β} {b : β} :
    x.map f = .ok b ↔ ∃ a, x = .ok a ∧ f a = b := by
  cases x with
  | error e => simp [Except.map]
  | ok a => simp [Except.map]

/-- Renaming errors does not touch successes. -/
@[simp] theorem mapError_eq_ok {x : Except ε α} {f : ε → ε'} {a : α} :
    x.mapError f = .ok a ↔ x = .ok a := by
  constructor
  · intro h
    cases x with
    | error e => cases h
    | ok b =>
      cases h
      rfl
  · rintro rfl
    rfl

/-- A result is known by what it gives. -/
theorem eq_ok_of_toOption {x : Except ε α} {a : α} (h : x.toOption = some a) : x = .ok a := by
  cases x with
  | error e => cases h
  | ok b =>
    cases h
    rfl

/-- What every step keeps holds at the end of a run. -/
theorem foldlM_invariant {f : β → α → Except ε β} {P : β → Prop} {xs : List α} {b c : β}
    (step : ∀ x ∈ xs, ∀ b c, P b → f b x = .ok c → P c) (hb : P b)
    (h : xs.foldlM f b = .ok c) : P c := by
  induction xs generalizing b with
  | nil =>
      cases h
      exact hb
  | cons x xs ih =>
      obtain ⟨d, hd, h⟩ := bind_eq_ok.mp h
      exact ih (fun y hy => step y (by simp [hy])) (step x (by simp) b d hb hd) h

/-! ## Outcomes

`Ends E P x` is a triple: `x` gives a result for which `P` holds or fails with an error for which
`E` holds.
-/

/-- The computation gives a result of the one kind or fails with an error of the other. -/
def Ends (E : ε → Prop) (P : α → Prop) : Except ε α → Prop
  | .ok a => P a
  | .error e => E e

namespace Ends

variable {E F : ε → Prop} {P Q : α → Prop} {R : β → Prop} {x : Except ε α}

/-- A known success ends well if its value does. -/
theorem of_eq_ok {a : α} (h : x = .ok a) (ha : P a) : Ends E P x := by
  rw [h]
  exact ha

/-- Weaker conditions hold of the same end. -/
theorem mono (h : Ends E P x) (hE : ∀ e, E e → F e) (hP : ∀ a, x = .ok a → P a → Q a) :
    Ends F Q x := by
  cases x with
  | ok a => exact hP a rfl h
  | error e => exact hE e h

/-- The second part of a sequence starts from what the first part can give. -/
theorem bind {f : α → Except ε β} (hx : Ends E P x)
    (hf : ∀ a, x = .ok a → P a → Ends E R (f a)) : Ends E R (x >>= f) := by
  cases x with
  | ok a => exact hf a rfl hx
  | error e => exact hx

/-- The errors of a mapped result are those of the result. -/
theorem map {f : α → β} (h : Ends E P x) (hf : ∀ a, P a → R (f a)) : Ends E R (x.map f) := by
  cases x with
  | ok a => exact hf a h
  | error e => exact h

theorem mapError {f : ε → ε'} {G : ε' → Prop} (h : Ends E P x) (hf : ∀ e, E e → G (f e)) :
    Ends G P (x.mapError f) := by
  cases x with
  | ok a => exact h
  | error e => exact hf e h

end Ends

/-! ## Flaws of parts as errors of the whole -/

@[simp] theorem lift_violation_eq_ok {x : Except Violation α} {a : α} :
    (liftM x : Except Error α) = .ok a ↔ x = .ok a := mapError_eq_ok

@[simp] theorem lift_range_eq_ok {x : Except RangeFlaw α} {a : α} :
    (liftM x : Except Error α) = .ok a ↔ x = .ok a := mapError_eq_ok

@[simp] theorem lift_name_eq_ok {x : Except NameFlaw α} {a : α} :
    (liftM x : Except Error α) = .ok a ↔ x = .ok a := mapError_eq_ok

@[simp] theorem Traced.result_lift (x : Except ε α) : (liftM x : Traced ε α).result = x := rfl

@[simp] theorem Traced.result_lift_violation (x : Except Violation α) :
    (liftM x : Traced Error α).result = (liftM x : Except Error α) := rfl

@[simp] theorem Traced.result_lift_name (x : Except NameFlaw α) :
    (liftM x : Traced Error α).result = (liftM x : Except Error α) := rfl

/-- The reports of a fold do not influence its result. -/
theorem Traced.result_foldlM (f : β → α → Traced ε β) (xs : List α) (b : β) :
    (xs.foldlM f b).result = xs.foldlM (fun b x => (f b x).result) b := by
  induction xs generalizing b with
  | nil => rfl
  | cons x xs ih => simp only [List.foldlM_cons, Traced.result_bind, ih]

end SmlSchema
