import Mathlib.Data.Nat.Bitwise
import SmlSchema.Text.Case

/-! # The first character of an upper or lower case form

The first character of an upper case form has itself as its upper case form, and so it is with lower
case: what a mapping can give first is never among the characters that it changes.
-/

namespace SmlSchema.Text

namespace Case

/-! ## Sets of code points as numbers -/

/-- The number that has the given bits. -/
def bits (ns : List Nat) : Nat := ns.foldr (fun n m => m ||| 1 <<< n) 0

theorem testBit_bits {n : Nat} {ns : List Nat} (h : n ∈ ns) : (bits ns).testBit n = true := by
  induction ns with
  | nil => cases h
  | cons m ns ih =>
      have hcons : bits (m :: ns) = bits ns ||| 1 <<< m := rfl
      rw [hcons, Nat.testBit_or]
      rcases List.mem_cons.mp h with rfl | h
      · simp
      · rw [ih h, Bool.true_or]

/-- Two sets of code points are disjoint if their bit masks are. -/
theorem not_mem_of_bits {ms ns : List Nat} (h : bits ms &&& bits ns = 0) {n : Nat} (hm : n ∈ ms) :
    n ∉ ns := by
  intro hn
  have hbit : (bits ms &&& bits ns).testBit n = true := by
    rw [Nat.testBit_and, testBit_bits hm, testBit_bits hn, Bool.and_true]
  rw [h, Nat.zero_testBit] at hbit
  cases hbit

/-! ## What a mapping changes -/

/-- The code points that the run maps. -/
def Run.points (r : Run) : List Nat :=
  (List.range ((r.last - r.first) / r.step + 1)).map (r.first + r.step * ·)

def Run.images (r : Run) : List Nat := r.points.map fun (n : Nat) => ((n : Int) + r.offset).toNat

theorem Run.image?_eq_some {r : Run} {n m : Nat} (h : r.image? n = some m) :
    n ∈ r.points ∧ m = ((n : Int) + r.offset).toNat := by
  unfold image? at h
  split at h
  · rename_i hrange
    simp only [Bool.and_eq_true, decide_eq_true_eq, beq_iff_eq] at hrange
    obtain ⟨⟨hfirst, hlast⟩, hstep⟩ := hrange
    have hn : n ∈ r.points := by
      refine List.mem_map.mpr ⟨(n - r.first) / r.step, List.mem_range.mpr ?_, ?_⟩
      · exact Nat.lt_succ_of_le (Nat.div_le_div_right (by omega))
      · have hdiv := Nat.div_add_mod (n - r.first) r.step
        omega
    exact ⟨hn, (Option.some.inj h).symm⟩
  · cases h

/-- The code points that a mapping changes. -/
def domain (expansions : List (Nat × List Nat)) (runs : List Run) : List Nat :=
  expansions.map (·.1) ++ runs.flatMap (·.points)

/-- The code points that a mapping can give first; zero stands for those that are none. -/
def heads (expansions : List (Nat × List Nat)) (runs : List Run) : List Nat :=
  0 :: (expansions.map (·.2.headD 0) ++ runs.flatMap (·.images))

section

variable {expansions : List (Nat × List Nat)} {runs : List Run}

/-- A character outside the tables stands for itself. -/
theorem mapping_eq_self {c : Char} (h : c.toNat ∉ domain expansions runs) :
    mapping expansions runs c = [c] := by
  rw [domain, List.mem_append, not_or] at h
  have hlookup : expansions.lookup c.toNat = none := by
    refine List.lookup_eq_none_iff.mpr fun e he => bne_iff_ne.mpr fun heq => h.1 ?_
    exact List.mem_map.mpr ⟨e, he, heq.symm⟩
  have hruns : (runs.takeWhile (·.first ≤ c.toNat)).findSome? (·.image? c.toNat) = none := by
    refine List.findSome?_eq_none_iff.mpr fun r hr => Option.eq_none_iff_forall_ne_some.mpr ?_
    intro m hm
    have hr := (List.takeWhile_sublist _).subset hr
    exact h.2 (List.mem_flatMap.mpr ⟨r, hr, (Run.image?_eq_some hm).1⟩)
  rw [mapping, hlookup, hruns]

theorem toNat_ofNat_mem {n : Nat} (h : n ∈ heads expansions runs) :
    (Char.ofNat n).toNat ∈ heads expansions runs := by
  by_cases hvalid : n.isValidChar
  · have hn : (Char.ofNat n).toNat = n := by
      rw [Char.ofNat, dif_pos hvalid]
      rfl
    rwa [hn]
  · rw [Char.ofNat, dif_neg hvalid]
    exact List.mem_cons_self

/-- What holds of every entry of the tables, and of the characters that are kept, holds of the whole
mapping. -/
theorem mapping_cases {R : Char → List Char → Prop}
    (kept : ∀ c, mapping expansions runs c = [c] → R c [c])
    (expanded : ∀ e ∈ expansions, R (Char.ofNat e.1) (e.2.map Char.ofNat))
    (shifted : ∀ r ∈ runs, ∀ n ∈ r.points,
      R (Char.ofNat n) [Char.ofNat ((n : Int) + r.offset).toNat]) (c : Char) :
    R c (mapping expansions runs c) := by
  -- the tables are looked up in this order, and a character that is in none of them is kept
  cases hlookup : expansions.lookup c.toNat with
  | some codes =>
      obtain ⟨front, back, hsplit, -⟩ := List.lookup_eq_some_iff.mp hlookup
      have hmem : (c.toNat, codes) ∈ expansions := by
        rw [hsplit]
        exact List.mem_append_right _ List.mem_cons_self
      have hentry := expanded _ hmem
      rw [Char.ofNat_toNat] at hentry
      rwa [mapping, hlookup]
  | none =>
      cases hruns : (runs.takeWhile (·.first ≤ c.toNat)).findSome? (·.image? c.toNat) with
      | some n =>
          obtain ⟨r, hr, himage⟩ := List.exists_of_findSome?_eq_some hruns
          obtain ⟨hpoint, rfl⟩ := Run.image?_eq_some himage
          have hentry := shifted r ((List.takeWhile_sublist _).subset hr) _ hpoint
          rw [Char.ofNat_toNat] at hentry
          rwa [mapping, hlookup, hruns]
      | none =>
          have hself : mapping expansions runs c = [c] := by rw [mapping, hlookup, hruns]
          rw [hself]
          exact kept c hself

/-- A mapping that never gives first what it changes leaves what it has given first as it is. -/
theorem mapping_head (hapart : bits (heads expansions runs) &&& bits (domain expansions runs) = 0)
    (hne : ∀ e ∈ expansions, e.2 ≠ []) (c : Char) :
    ∃ d rest, mapping expansions runs c = d :: rest ∧ mapping expansions runs d = [d] := by
  have hfixed : ∀ n ∈ heads expansions runs,
      mapping expansions runs (Char.ofNat n) = [Char.ofNat n] := fun n hn =>
    mapping_eq_self (not_mem_of_bits hapart (toNat_ofNat_mem hn))
  refine mapping_cases (R := fun _ ds => ∃ d rest, ds = d :: rest ∧ mapping expansions runs d = [d])
    (fun c hself => ⟨c, [], rfl, hself⟩) (fun e he => ?_) (fun r hr n hn => ?_) c
  · obtain ⟨n, codes, hcodes⟩ := List.exists_cons_of_ne_nil (hne e he)
    refine ⟨Char.ofNat n, codes.map Char.ofNat, by rw [hcodes, List.map_cons], hfixed n ?_⟩
    refine List.mem_cons_of_mem _ (List.mem_append_left _ (List.mem_map.mpr ⟨e, he, ?_⟩))
    rw [hcodes, List.headD_cons]
  · refine ⟨_, [], rfl, hfixed _ (List.mem_cons_of_mem _ (List.mem_append_right _ ?_))⟩
    exact List.mem_flatMap.mpr ⟨r, hr, List.mem_map.mpr ⟨n, hn, rfl⟩⟩

end

end Case

/-- The first character of an upper-case form is in upper case. -/
theorem upperChar_head (c : Char) : ∃ d rest, upperChar c = d :: rest ∧ upperChar d = [d] :=
  Case.mapping_head (by decide +kernel) (by decide +kernel) c

/-- The first character of a lower-case form is in lower case. -/
theorem lowerChar_head (c : Char) : ∃ d rest, lowerChar c = d :: rest ∧ lowerChar d = [d] :=
  Case.mapping_head (by decide +kernel) (by decide +kernel) c

end SmlSchema.Text
