import Mathlib.Algebra.Group.Nat.Defs
import Mathlib.Data.List.Induction
import SmlSchema.Scalar.Digits
import SmlSchema.Text.Character
import SmlSchema.Text.Case

/-! # Writing and reading decimal digits -/

namespace SmlSchema.Scalar

theorem isDecimal_iff_isDigit (c : Char) : isDecimal c = c.isDigit := rfl

/-- A number is written in decimal digits. -/
theorem isDecimal_of_mem_natDigits {n : Nat} {c : Char} (h : c ∈ natDigits n) : isDecimal c := by
  rw [isDecimal_iff_isDigit]
  exact Nat.isDigit_of_mem_toDigits (by decide) (by decide) h

/-- A number is shown by its digits. -/
theorem toList_toString (n : Nat) : (toString n).toList = natDigits n := by
  rw [natDigits, Nat.toString_eq_repr, Nat.repr, String.toList_ofList]

theorem natDigits_ne_nil (n : Nat) : natDigits n ≠ [] := Nat.toDigits_ne_nil

/-- Written digits are read as the number they were written for. -/
@[simp] theorem natOfDigits_natDigits (n : Nat) : natOfDigits (natDigits n) = n :=
  Nat.ofDigitChars_ten_toDigits

theorem digitValue_lt {c : Char} (h : isDecimal c) : digitValue c < 10 := by
  simp only [isDecimal, Bool.and_eq_true, decide_eq_true_eq] at h
  have hle : c.toNat ≤ '9'.toNat := h.2
  simp only [digitValue]
  have h9 : '9'.toNat = 57 := rfl
  have h0 : '0'.toNat = 48 := rfl
  omega

/-- Digits write a number below the power of ten of their count. -/
theorem natOfDigits_lt {ds : List Char} (h : ∀ d ∈ ds, isDecimal d) :
    natOfDigits ds < 10 ^ ds.length := by
  induction ds using List.reverseRecOn with
  | nil => simp [natOfDigits]
  | append_singleton ds d ih =>
      have hlast := digitValue_lt (h d (by simp))
      have hds := ih fun e he => h e (by simp [he])
      simp only [natOfDigits, List.foldl_append, List.foldl_cons, List.foldl_nil,
        List.length_append, List.length_singleton, Nat.pow_succ] at hds ⊢
      omega

/-- A number is never written longer than it was read. -/
theorem length_natDigits_le {ds : List Char} (h : ∀ d ∈ ds, isDecimal d) (hne : ds ≠ []) :
    (natDigits (natOfDigits ds)).length ≤ ds.length :=
  (Nat.length_toDigits_le_iff (by decide) (List.length_pos_iff.mpr hne)).mpr (natOfDigits_lt h)

/-! ## Digits among other characters -/

/-- Each decimal digit is the digit of a number below ten. -/
theorem eq_digitChar_of_isDecimal {c : Char} (h : isDecimal c) : ∃ n < 10, c = Nat.digitChar n := by
  have hlt := digitValue_lt h
  refine ⟨digitValue c, hlt, Char.toNat_inj.mp ?_⟩
  simp only [isDecimal, Bool.and_eq_true, decide_eq_true_eq] at h
  have hlow : '0'.toNat ≤ c.toNat := h.1
  rw [Nat.toNat_digitChar_of_lt_ten hlt, digitValue]
  have h0 : '0'.toNat = 48 := rfl
  omega

/-- A digit is not blank, is no line end and no dot, and has no letter case. -/
theorem isDecimal_apart {c : Char} (h : isDecimal c) :
    Text.isBlank c = false ∧ Text.upperChar c = [c] ∧ c ≠ '.' ∧ c ≠ 'N' ∧ c ≠ '[' := by
  obtain ⟨n, hn, rfl⟩ := eq_digitChar_of_isDecimal h
  have hall : ∀ n < 10, Text.isBlank (Nat.digitChar n) = false ∧
      Text.upperChar (Nat.digitChar n) = [Nat.digitChar n] ∧ Nat.digitChar n ≠ '.' ∧
      Nat.digitChar n ≠ 'N' ∧ Nat.digitChar n ≠ '[' := by decide
  exact hall n hn

end SmlSchema.Scalar
