import SmlSchema.Computation

/-! # All or nothing

What a computation has changed stays when it fails, so that nothing but the order of its steps keeps
the state whole. A computation that looks and checks first and changes the state last is atomic: if
it fails, then the state is as before.
-/

namespace SmlSchema

namespace Attempt

variable {σ ε α β : Type} {x : Attempt σ ε α} {f : α → Attempt σ ε β} {s t : σ} {a : α} {e : ε}

/-! ## One step after the other -/

@[simp] theorem on_pure (a : α) (s : σ) : (pure a : Attempt σ ε α).on s = (.ok a, s) := rfl

@[simp] theorem on_get (s : σ) : (get : Attempt σ ε σ).on s = (.ok s, s) := rfl

@[simp] theorem on_set (t s : σ) : (set t : Attempt σ ε Unit).on s = (.ok (), t) := rfl

@[simp] theorem on_throw (e : ε) (s : σ) : (throw e : Attempt σ ε α).on s = (.error e, s) := rfl

@[simp] theorem on_lift (r : Except ε α) (s : σ) : (liftM r : Attempt σ ε α).on s = (r, s) := rfl

/-- After a step that succeeds the rest goes on with its result and its state. -/
theorem on_bind_of_ok (h : x.on s = (.ok a, t)) : (x >>= f).on s = (f a).on t := by
  rw [on] at h
  rw [on, ExceptT.run_bind, StateT.run_bind, h]
  rfl

/-- A step that fails ends the whole in the state it has reached. -/
theorem on_bind_of_error (h : x.on s = (.error e, t)) : (x >>= f).on s = (.error e, t) := by
  rw [on] at h
  rw [on, ExceptT.run_bind, StateT.run_bind, h]
  rfl

/-- A sequence succeeds if both of its parts do, the second on the state that the first leaves. -/
theorem on_bind_eq_ok {b : β} :
    (x >>= f).on s = (.ok b, t) ↔ ∃ a u, x.on s = (.ok a, u) ∧ (f a).on u = (.ok b, t) := by
  rcases h : x.on s with ⟨e | a, u⟩
  · simp [on_bind_of_error h]
  · rw [on_bind_of_ok h]
    constructor
    · intro hb
      exact ⟨a, u, rfl, hb⟩
    · rintro ⟨_, _, ⟨⟩, hb⟩
      exact hb

/-- A check that is part of a successful computation has succeeded and changed nothing. -/
theorem on_lift_bind_eq_ok {r : Except ε α} {b : β} :
    ((liftM r : Attempt σ ε α) >>= f).on s = (.ok b, t) ↔
      ∃ a, r = .ok a ∧ (f a).on s = (.ok b, t) := by
  rw [on_bind_eq_ok]
  constructor
  · rintro ⟨a, u, hr, hb⟩
    rw [on_lift, Prod.mk.injEq] at hr
    obtain ⟨hr, rfl⟩ := hr
    exact ⟨a, hr, hb⟩
  · rintro ⟨a, rfl, hb⟩
    exact ⟨a, s, rfl, hb⟩

/-! ## Looking first and changing last -/

/-- The computation does not change the state. -/
def Looks (x : Attempt σ ε α) : Prop := ∀ s, (x.on s).2 = s

/-- If the computation fails on the state, then it leaves it as it is. -/
def Atomic (x : Attempt σ ε α) (s : σ) : Prop := ∀ e t, x.on s = (.error e, t) → t = s

/-- What never changes the state does not change it when it fails. -/
theorem Looks.atomic (h : x.Looks) (s : σ) : x.Atomic s := by
  intro e t herror
  rw [← h s, herror]

namespace Atomic

/-- A computation that succeeds cannot break atomicity. -/
theorem of_ok (h : x.on s = (.ok a, t)) : x.Atomic s := by
  intro e u herror
  rw [h] at herror
  cases herror

/-- Looking first. -/
theorem look (hx : x.Looks) (hf : ∀ a, x.on s = (.ok a, s) → (f a).Atomic s) :
    (x >>= f).Atomic s := by
  have hkept := hx s
  rcases h : x.on s with ⟨e | a, t⟩
  · rw [h] at hkept
    obtain rfl : t = s := hkept
    intro e' u herror
    rw [on_bind_of_error h] at herror
    exact (Prod.mk.inj herror).2.symm
  · rw [h] at hkept
    obtain rfl : t = s := hkept
    intro e' u herror
    rw [on_bind_of_ok h] at herror
    exact hf a h e' u herror

/-- Changing last: what comes after the change succeeds. -/
theorem settle (hx : x.Atomic s)
    (hf : ∀ a t, x.on s = (.ok a, t) → ∃ b u, (f a).on t = (.ok b, u)) : (x >>= f).Atomic s := by
  rcases h : x.on s with ⟨e | a, t⟩
  · intro e' u herror
    rw [on_bind_of_error h] at herror
    obtain ⟨-, rfl⟩ := Prod.mk.inj herror
    exact hx e t h
  · obtain ⟨b, u, hb⟩ := hf a t h
    exact of_ok ((on_bind_of_ok h).trans hb)

/-- Either all of the computation is done or nothing. -/
theorem on_eq (h : x.Atomic s) :
    (∃ a t, x.result s = .ok (t, a) ∧ x.on s = (.ok a, t)) ∨
      ∃ e, x.result s = .error e ∧ x.on s = (.error e, s) := by
  rcases hon : x.on s with ⟨e | a, t⟩
  · obtain rfl := h e t hon
    exact .inr ⟨e, by simp [result, hon], rfl⟩
  · exact .inl ⟨a, t, by simp [result, hon], rfl⟩

end Atomic

theorem looks_get : (get : Attempt σ ε σ).Looks := fun _ => rfl

theorem looks_lift (r : Except ε α) : (liftM r : Attempt σ ε α).Looks := fun _ => rfl

end Attempt

end SmlSchema
