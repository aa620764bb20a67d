import SmlSchema.Proofs.Text.Case
import SmlSchema.Text.Character
import SmlSchema.Text.Identifier

/-! # Letter case in identifiers

The upper and the lower case form of a character of identifiers consist of such characters. Whether
a name can begin with the form is no matter of letter case but for one character: the iota below a
letter, U+0345, is a mark in lower case and a letter in upper case.
-/

namespace SmlSchema.Text

/-- The character may be the first of an identifier, or it is a digit, before which an underscore is
put. -/
def leadsIdentifier (c : Char) : Bool := startsIdentifier c || isDigit c

/-! ## Ranges as numbers -/

/-- The number that has the bits of the code points in the ranges. Ranges stand in ascending order:
from the left, what is computed on the way stays small. -/
def Ranges.mask (rs : Ranges) : Nat :=
  rs.foldl (fun m r => m ||| (1 <<< (r.2 + 1 - r.1) - 1) <<< r.1) 0

theorem Ranges.testBit_mask_eq_any (rs : Ranges) (n : Nat) :
    rs.mask.testBit n = rs.any fun r => r.1 ≤ n && n ≤ r.2 := by
  -- what the fold starts with is kept
  suffices h : ∀ m, (rs.foldl (fun m r => m ||| (1 <<< (r.2 + 1 - r.1) - 1) <<< r.1) m).testBit n =
      (m.testBit n || rs.any fun r => r.1 ≤ n && n ≤ r.2) by
    rw [mask, h, Nat.zero_testBit, Bool.false_or]
  induction rs with
  | nil => simp
  | cons r rs ih =>
      intro m
      have hrange : (decide (r.1 ≤ n) && decide (n - r.1 < r.2 + 1 - r.1)) =
          (decide (r.1 ≤ n) && decide (n ≤ r.2)) := by
        rw [← Bool.decide_and, ← Bool.decide_and, decide_eq_decide]
        omega
      rw [List.foldl_cons, ih, Nat.testBit_or, Nat.testBit_shiftLeft, Nat.one_shiftLeft,
        Nat.testBit_two_pow_sub_one, List.any_cons, Bool.or_assoc]
      exact congrArg (fun b => m.testBit n || (b || rs.any fun r => r.1 ≤ n && n ≤ r.2)) hrange

/-- The mask of ranges has a bit for each of their characters. -/
theorem Ranges.testBit_mask (rs : Ranges) (c : Char) : rs.mask.testBit c.toNat = rs.has c :=
  rs.testBit_mask_eq_any c.toNat

/-- The ranges have all that is in the other ones. -/
def Ranges.covers (rs spans : Ranges) : Bool := spans.mask &&& rs.mask == spans.mask

/-- Ranges that cover spans have the characters of the spans. -/
theorem Ranges.testBit_of_covers {rs spans : Ranges} (h : rs.covers spans = true) {n : Nat}
    (hn : spans.mask.testBit n = true) : rs.mask.testBit n = true := by
  rw [← beq_iff_eq.mp h, Nat.testBit_and, Bool.and_eq_true] at hn
  exact hn.2

/-- One character is looked up by its own bit, so that the mask need not be shifted. -/
def Ranges.hasBit (rs : Ranges) (c : Char) : Bool := rs.covers [(c.toNat, c.toNat)]

theorem Ranges.hasBit_eq (rs : Ranges) (c : Char) : rs.hasBit c = rs.has c := by
  have hself : mask [(c.toNat, c.toNat)] = 2 ^ c.toNat := by
    simp [mask, Nat.shiftLeft_eq]
  have hpos : 0 ≠ 2 ^ c.toNat := (Nat.two_pow_pos _).ne
  rw [hasBit, covers, hself, Nat.two_pow_and, testBit_mask]
  cases rs.has c <;> simp [hpos]

/-- What may begin an identifier may also follow others in it. -/
theorem continuesIdentifier_of_starts {c : Char} (h : startsIdentifier c) :
    continuesIdentifier c := by
  have hcovers : identifierRanges.covers identifierStartRanges = true := by decide +kernel
  have hbit := Ranges.testBit_of_covers hcovers ((Ranges.testBit_mask _ c).trans h)
  exact (Ranges.testBit_mask _ c).symm.trans hbit

/-- The ranges hold code points of characters only. -/
theorem startsIdentifier_ofNat {n : Nat} (h : identifierStartRanges.mask.testBit n = true) :
    startsIdentifier (Char.ofNat n) := by
  have hvalid : identifierStartRanges.all
      (fun r => r.2 < 0xD800 || 0xDFFF < r.1 && r.2 < 0x110000) = true := by decide +kernel
  have hn : n.isValidChar := by
    rw [Ranges.testBit_mask_eq_any, List.any_eq_true] at h
    obtain ⟨r, hr, hrange⟩ := h
    have hbounds := List.all_eq_true.mp hvalid r hr
    simp only [Bool.and_eq_true, Bool.or_eq_true, decide_eq_true_eq] at hrange hbounds
    simp only [Nat.isValidChar]
    omega
  have htoNat : (Char.ofNat n).toNat = n := by
    rw [Char.ofNat, dif_pos hn]
    rfl
  rw [startsIdentifier, ← Ranges.testBit_mask, htoNat]
  exact h

/-- The characters that lead identifiers. -/
def leadRanges : Ranges := identifierStartRanges ++ digitRanges

theorem has_leadRanges (c : Char) : leadRanges.has c = leadsIdentifier c := List.any_append

/-! ## Forms of one character -/

/-- The form of a character of identifiers consists of such, and its first character leads an
identifier if the character does or is one of the exceptions. -/
def KeepsIdentifier (exceptions : List Char) (c : Char) (form : List Char) : Prop :=
  continuesIdentifier c → (∀ d ∈ form, continuesIdentifier d) ∧
    ∀ d rest, form = d :: rest → (leadsIdentifier d ↔ leadsIdentifier c ∨ c ∈ exceptions)

/-- The same as a computation with numbers. -/
def keepsMasks (exceptions : List Char) (c : Char) (form : List Char) : Bool :=
  !identifierRanges.hasBit c ||
    form.all (identifierRanges.hasBit ·) &&
      form.head?.all (leadRanges.hasBit · == (leadRanges.hasBit c || exceptions.contains c))

/-- The check by masks is sound. -/
theorem keepsIdentifier_of_masks {exceptions : List Char} {c : Char} {form : List Char}
    (h : keepsMasks exceptions c form = true) : KeepsIdentifier exceptions c form := by
  simp only [keepsMasks, Ranges.hasBit_eq, has_leadRanges] at h
  intro hc
  have hidentifier : identifierRanges.has c = true := hc
  simp only [hidentifier, Bool.not_true, Bool.false_or, Bool.and_eq_true, List.all_eq_true] at h
  refine ⟨h.1, ?_⟩
  rintro d rest rfl
  have hlead : leadsIdentifier d = (leadsIdentifier c || exceptions.contains c) := by
    simpa using h.2
  rw [hlead, Bool.or_eq_true, List.contains_iff_mem]

theorem keepsIdentifier_of_starts {exceptions : List Char} {c d : Char} (hc : startsIdentifier c)
    (hd : startsIdentifier d) : KeepsIdentifier exceptions c [d] := by
  have hlead : ∀ {e}, startsIdentifier e → leadsIdentifier e := fun he =>
    Bool.or_eq_true_iff.mpr (.inl he)
  intro _
  refine ⟨List.forall_mem_singleton.mpr (continuesIdentifier_of_starts hd), ?_⟩
  rintro _ _ ⟨⟩
  exact iff_of_true (hlead hd) (.inl (hlead hc))

/-- What the run maps and what it maps it to lies in these ranges. -/
def runSpans (r : Case.Run) : Ranges :=
  let last := r.first + (r.last - r.first)
  [(r.first, last), (((r.first : Int) + r.offset).toNat, ((last : Int) + r.offset).toNat)]

theorem testBit_runSpans {r : Case.Run} {n : Nat} (hn : n ∈ r.points) :
    (runSpans r).mask.testBit n = true ∧
      (runSpans r).mask.testBit ((n : Int) + r.offset).toNat = true := by
  obtain ⟨i, hi, rfl⟩ := List.mem_map.mp hn
  have hstep : r.step * i ≤ r.last - r.first :=
    (Nat.mul_le_mul_left _ (Nat.le_of_lt_succ (List.mem_range.mp hi))).trans (Nat.mul_div_le _ _)
  simp only [Ranges.testBit_mask_eq_any, runSpans, List.any_cons, Bool.or_eq_true,
    Bool.and_eq_true, decide_eq_true_eq]
  exact ⟨.inl (by omega), .inr (.inl (by omega))⟩

/-- Nearly all runs go from letters to letters. In the others each character is looked at. -/
def runKeeps (exceptions : List Char) (r : Case.Run) : Bool :=
  identifierStartRanges.covers (runSpans r) ||
    r.points.all fun n => keepsMasks exceptions (Char.ofNat n)
      [Char.ofNat ((n : Int) + r.offset).toNat]

/-- The check of a run is sound for all its characters. -/
theorem keepsIdentifier_of_runKeeps {exceptions : List Char} {r : Case.Run}
    (h : runKeeps exceptions r = true) {n : Nat} (hn : n ∈ r.points) :
    KeepsIdentifier exceptions (Char.ofNat n) [Char.ofNat ((n : Int) + r.offset).toNat] := by
  rcases Bool.or_eq_true_iff.mp h with hcovers | hall
  · obtain ⟨hpoint, himage⟩ := testBit_runSpans hn
    exact keepsIdentifier_of_starts
      (startsIdentifier_ofNat (Ranges.testBit_of_covers hcovers hpoint))
      (startsIdentifier_ofNat (Ranges.testBit_of_covers hcovers himage))
  · exact keepsIdentifier_of_masks (List.all_eq_true.mp hall n hn)

/-- If expansions and runs pass their checks, the whole mapping keeps identifiers. -/
theorem mapping_keepsIdentifier {expansions : List (Nat × List Nat)} {runs : List Case.Run}
    {exceptions : List Char}
    (changed : ∀ c ∈ exceptions, Case.mapping expansions runs c ≠ [c])
    (expanded : expansions.all
      fun e => keepsMasks exceptions (Char.ofNat e.1) (e.2.map Char.ofNat))
    (shifted : runs.all (runKeeps exceptions)) (c : Char) :
    KeepsIdentifier exceptions c (Case.mapping expansions runs c) := by
  refine Case.mapping_cases (R := KeepsIdentifier exceptions) (fun c hself hc => ?_)
    (fun e he => ?_) (fun r hr n hn => ?_) c
  · refine ⟨List.forall_mem_singleton.mpr hc, ?_⟩
    rintro d rest ⟨⟩
    exact (or_iff_left fun hmem => changed c hmem hself).symm
  · exact keepsIdentifier_of_masks (List.all_eq_true.mp expanded e he)
  · exact keepsIdentifier_of_runKeeps (List.all_eq_true.mp shifted r hr) hn

/-- Upper case keeps identifiers, except for one mark. -/
theorem upperChar_keepsIdentifier (c : Char) : KeepsIdentifier ['\u0345'] c (upperChar c) :=
  mapping_keepsIdentifier (List.forall_mem_singleton.mpr (by decide +kernel)) (by decide +kernel)
    (by decide +kernel) c

/-- Lower case keeps identifiers. -/
theorem lowerChar_keepsIdentifier (c : Char) : KeepsIdentifier [] c (lowerChar c) :=
  mapping_keepsIdentifier (List.forall_mem_nil _) (by decide +kernel) (by decide +kernel) c

end SmlSchema.Text
