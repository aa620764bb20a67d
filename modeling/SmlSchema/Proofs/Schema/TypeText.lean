import SmlSchema.Proofs.Result
import SmlSchema.Proofs.Scalar.Digits
import SmlSchema.Schema.TypeText

/-! # Reading the text of a data type back

The text of a type is cut from the end. The cut finds the parts that the text was put together from,
unless the base name ends like a mark or holds a bracket where one would be taken for that of an
array. Parts that were cut from a text never do: they are legible.
-/

namespace SmlSchema

/-! ## Bases under their names -/

/-- The base that is offered. -/
def Candidate.base? : Candidate → Option Base
  | .value b => some (.value b)
  | .struct scope s => some (.struct scope s.name)
  | .foreign _ => none

theorem Predefined.ofName?_name (t : Predefined) : ofName? t.name = some t := by
  cases t <;> decide

/-- The name of a predefined type looks like no mark and no array. -/
theorem Predefined.name_plain (t : Predefined) :
    t.name.toList ≠ [] ∧ t.name.toList.getLast? ≠ some '?' ∧ '[' ∉ t.name.toList ∧
      t.name.toList.getLast? ≠ some ']' := by
  cases t <;> decide

/-- What is found is in the scope where it is found. -/
theorem Place.nearest?_eq_some {f : Scope → Option α} {p q : Place} {a : α}
    (h : p.nearest? f = some (q, a)) : f q.scope = some a := by
  induction p with
  | top s =>
      obtain ⟨b, hb, heq⟩ := Option.map_eq_some_iff.mp h
      cases heq
      exact hb
  | within outer name s ih =>
      rw [nearest?] at h
      split at h
      · rename_i b hb
        cases h
        exact hb
      · exact ih h

theorem Place.name_of_struct? {p q : Place} {name : String} {s : Struct}
    (h : p.struct? name = some (q, s)) : s.name = name := by
  have hfound : q.scope.structs.find? (·.name == name) = some s := nearest?_eq_some h
  have hname := List.find?_some hfound
  exact eq_of_beq hname

/-- A type of single values is found under its own name, which is the name it was found under unless
it is predefined. -/
theorem Place.valueBase?_name {p : Place} {name : String} {b : ValueBase}
    (h : p.valueBase? name = some b) :
    p.valueBase? b.name = some b ∧ (b.name = name ∨ ∃ t, b = .predefined t) := by
  unfold valueBase? at h
  split at h
  · rename_i t _
    cases h
    refine ⟨?_, .inr ⟨t, rfl⟩⟩
    simp only [valueBase?, ValueBase.name, Predefined.ofName?_name]
  · rename_i hnone
    obtain ⟨r, hr, rfl⟩ := Option.map_eq_some_iff.mp h
    refine ⟨?_, .inl rfl⟩
    simp only [valueBase?, ValueBase.name, hnone, hr, Option.map_some]

/-- A base that was found by a name is found by its own name. -/
theorem Place.base?_name {p : Place} {name : String} {c : Candidate} {base : Base}
    (h : p.base? name = some c) (hbase : c.base? = some base) :
    p.base? base.name = some c ∧
      (base.name = name ∨ ∃ t, base = .value (.predefined t)) := by
  unfold base? at h
  split at h
  · rename_i b hb
    cases h
    cases hbase
    obtain ⟨hself, hname⟩ := valueBase?_name hb
    refine ⟨by simp only [base?, Base.name, hself], ?_⟩
    rcases hname with hname | ⟨t, rfl⟩
    · exact .inl hname
    · exact .inr ⟨t, rfl⟩
  · rename_i hnone
    obtain ⟨⟨q, s⟩, hs, rfl⟩ := Option.map_eq_some_iff.mp h
    cases hbase
    obtain rfl : s.name = name := name_of_struct? hs
    refine ⟨?_, .inl rfl⟩
    simp only [base?, Base.name, hnone, hs, Option.map_some]

namespace DataType

/-! ## Cutting off tails -/

theorem dropTail?_append (rest tail : List Char) : dropTail? tail (rest ++ tail) = some rest := by
  rw [dropTail?, if_pos (List.isSuffixOf_iff_suffix.mpr (List.suffix_append rest tail)),
    List.length_append, Nat.add_sub_cancel, List.take_left]

/-- A tail is dropped exactly if the text ends with it. -/
theorem dropTail?_eq_some {tail cs rest : List Char} :
    dropTail? tail cs = some rest ↔ cs = rest ++ tail := by
  constructor
  · intro h
    unfold dropTail? at h
    split at h
    · rename_i hs
      obtain ⟨front, rfl⟩ := List.isSuffixOf_iff_suffix.mp hs
      rw [List.length_append, Nat.add_sub_cancel, List.take_left, Option.some.injEq] at h
      rw [h]
    · cases h
  · rintro rfl
    exact dropTail?_append rest tail

theorem dropTail?_eq_none {tail cs : List Char} :
    dropTail? tail cs = none ↔ ∀ rest, cs ≠ rest ++ tail := by
  rw [← Option.not_isSome_iff_eq_none, Option.isSome_iff_exists, not_exists]
  exact forall_congr' fun rest => not_congr dropTail?_eq_some

theorem dropTail?_singleton_eq_none {c : Char} {cs : List Char} :
    dropTail? [c] cs = none ↔ cs.getLast? ≠ some c := by
  rw [dropTail?_eq_none, ne_eq, List.getLast?_eq_some_iff, not_exists]

/-! ## Sizes of arrays -/

/-- The number can be read when it has been written. -/
def Bound (n : Nat) : Prop := (Scalar.natDigits n).length ≤ Scalar.maxIntegerDigits

/-- Both bounds can be read when they have been written. -/
def Bounded (o : Occurrence) : Prop := Bound o.min ∧ ∀ m, o.max = some m → Bound m

theorem trimChars_of_not_blank {cs : List Char} (h : ∀ c ∈ cs, Text.isBlank c = false) :
    Text.trimChars cs = cs := by
  have hdrop : ∀ ds : List Char, (∀ c ∈ ds, Text.isBlank c = false) →
      ds.dropWhile Text.isBlank = ds := by
    intro ds hds
    cases ds with
    | nil => rfl
    | cons d ds => simp [hds d (by simp)]
  rw [Text.trimChars, Text.trimEnds, hdrop cs h, hdrop cs.reverse (by simpa using h),
    List.reverse_reverse]

theorem trimChars_natDigits (n : Nat) : Text.trimChars (Scalar.natDigits n) = Scalar.natDigits n :=
  trimChars_of_not_blank fun _ hc =>
    (Scalar.isDecimal_apart (Scalar.isDecimal_of_mem_natDigits hc)).1

/-- A bound is read from its digits. -/
theorem readBound_natDigits (whole : String) {n : Nat} (h : Bound n) :
    readBound whole (Scalar.natDigits n) = .ok n := by
  have hdigits : (Scalar.natDigits n).all Scalar.isDecimal :=
    List.all_eq_true.mpr fun c hc => Scalar.isDecimal_of_mem_natDigits hc
  have hne : (Scalar.natDigits n).isEmpty = false := by simp [Scalar.natDigits_ne_nil]
  rw [readBound, trimChars_natDigits]
  simp only [hdigits, hne, Scalar.natOfText, if_neg (Nat.not_lt.mpr h),
    Scalar.natOfDigits_natDigits]
  rfl

/-- What is read is a bound. -/
theorem bound_of_readBound {whole : String} {cs : List Char} {n : Nat}
    (h : readBound whole cs = .ok n) : Bound n := by
  simp only [readBound] at h
  split at h
  · rename_i hd
    rw [Bool.and_eq_true, Bool.not_eq_true', List.isEmpty_eq_false_iff, List.all_eq_true] at hd
    rw [mapError_eq_ok, Scalar.natOfText] at h
    split at h
    · cases h
    · rename_i hlen
      cases h
      exact Nat.le_trans (Scalar.length_natDigits_le hd.2 hd.1) (Nat.not_lt.mp hlen)
  · cases h

theorem splitDots?_of_not_mem {cs : List Char} (h : '.' ∉ cs) : splitDots? cs = none := by
  induction cs with
  | nil => rfl
  | cons c cs ih =>
      have hc : c ≠ '.' := fun hc => h (by simp [hc])
      rw [splitDots?, ih fun hcs => h (by simp [hcs])]
      · rfl
      · intro _ hdot
        exact absurd hdot hc

/-- Dots part the bounds. -/
theorem splitDots?_append {low : List Char} (h : '.' ∉ low) (high : List Char) :
    splitDots? (low ++ '.' :: '.' :: high) = some (low, high) := by
  induction low with
  | nil => rfl
  | cons c low ih =>
      have hc : c ≠ '.' := fun hc => h (by simp [hc])
      rw [List.cons_append, splitDots?, ih fun hcs => h (by simp [hcs])]
      · rfl
      · intro _ hdot
        exact absurd hdot hc

theorem dot_not_mem_natDigits (n : Nat) : '.' ∉ Scalar.natDigits n := fun h =>
  (Scalar.isDecimal_apart (Scalar.isDecimal_of_mem_natDigits h)).2.2.1 rfl

/-- The characters of the upper bound. -/
def highText : Option Nat → List Char
  | none => ['N']
  | some m => Scalar.natDigits m

/-- The text of a size is one bound, or two with dots between them. -/
theorem toList_sizeText (o : Occurrence) :
    (sizeText o).toList =
      Scalar.natDigits o.min ++ if o.isFixed then [] else '.' :: '.' :: highText o.max := by
  rw [sizeText, String.toList_append, Scalar.toList_toString]
  split
  · rfl
  · rw [String.toList_append]
    cases o.max with
    | none => rfl
    | some m => exact congrArg (fun high => _ ++ '.' :: '.' :: high) (Scalar.toList_toString m)

theorem upperChars_natDigits (n : Nat) :
    Text.upperChars (Scalar.natDigits n) = Scalar.natDigits n := by
  have h : ∀ ds : List Char, (∀ d ∈ ds, Scalar.isDecimal d) → Text.upperChars ds = ds := by
    intro ds hds
    induction ds with
    | nil => rfl
    | cons d ds ih =>
        rw [Text.upperChars, List.flatMap_cons, (Scalar.isDecimal_apart (hds d (by simp))).2.1]
        exact congrArg (d :: ·) (ih fun e he => hds e (by simp [he]))
  exact h _ fun d hd => Scalar.isDecimal_of_mem_natDigits hd

/-- A range is made of bounds in order. -/
theorem make_natCast {min max : Nat} (h : min ≤ max) :
    Occurrence.make (some min) (some max) = .ok ⟨min, some max, by rintro m ⟨⟩; exact h⟩ := by
  have hmin : ¬ ((min : Int) < 0) := by omega
  have hmax : ¬ ((max : Int) < 0) := by omega
  have hle : ¬ ((max : Int) < min) := by omega
  simp only [Occurrence.make, Option.getD_some, if_neg hmin, if_neg hmax, dif_neg hle,
    Int.toNat_natCast]

/-- Written sizes are read back. -/
theorem readBounds_sizeText (whole : String) {o : Occurrence} (h : Bounded o) :
    readBounds whole (sizeText o).toList = .ok o := by
  obtain ⟨min, max, hle⟩ := o
  obtain ⟨hmin, hmax⟩ := h
  rw [toList_sizeText, readBounds]
  by_cases hfixed : max = some min
  · subst hfixed
    simp only [Occurrence.isFixed, beq_self_eq_true, if_true, List.append_nil,
      splitDots?_of_not_mem (dot_not_mem_natDigits min), readBound_natDigits whole hmin]
    rfl
  · simp only [Occurrence.isFixed, beq_eq_false_iff_ne.mpr hfixed, Bool.false_eq_true, if_false,
      splitDots?_append (dot_not_mem_natDigits min), readBound_natDigits whole hmin, ok_bind]
    cases max with
    | none => rfl
    | some m =>
        have hN : Scalar.natDigits m ≠ ['N'] := by
          intro heq
          have hmem : 'N' ∈ Scalar.natDigits m := by simp [heq]
          exact (Scalar.isDecimal_apart (Scalar.isDecimal_of_mem_natDigits hmem)).2.2.2.1 rfl
        simp only [highText, trimChars_natDigits, upperChars_natDigits, hN, if_false,
          readBound_natDigits whole (hmax m rfl)]
        exact congrArg (Except.mapError Error.range) (make_natCast (hle m rfl))

/-- A range has the bounds that it was made of. -/
theorem bounds_of_make {min : Nat} {max : Option Nat} {o : Occurrence}
    (h : Occurrence.make (some min) (max.map Int.ofNat) = .ok o) : o.min = min ∧ o.max = max := by
  have hmin : ¬ ((min : Int) < 0) := by omega
  cases max with
  | none =>
      simp only [Occurrence.make, Option.getD_some, if_neg hmin, Option.map_none,
        Int.toNat_natCast] at h
      cases h
      exact ⟨rfl, rfl⟩
  | some m =>
      by_cases hle : min ≤ m
      · rw [Option.map_some, Int.ofNat_eq_natCast, make_natCast hle] at h
        cases h
        exact ⟨rfl, rfl⟩
      · have hm : ¬ ((m : Int) < 0) := by omega
        have hlt : (m : Int) < min := by omega
        simp only [Occurrence.make, Option.getD_some, if_neg hmin, Option.map_some,
          Int.ofNat_eq_natCast, if_neg hm, dif_pos hlt] at h
        cases h

/-- The bounds that were read can be written. -/
theorem bounded_of_readBounds {whole : String} {cs : List Char} {o : Occurrence}
    (h : readBounds whole cs = .ok o) : Bounded o := by
  unfold readBounds at h
  split at h
  · obtain ⟨n, hn, ho⟩ := bind_eq_ok.mp h
    cases ho
    have hbound := bound_of_readBound hn
    exact ⟨hbound, by rintro m ⟨⟩; exact hbound⟩
  · rename_i low high _
    obtain ⟨min, hmin, h⟩ := bind_eq_ok.mp h
    split at h
    · obtain ⟨homin, homax⟩ := bounds_of_make (lift_range_eq_ok.mp h)
      exact ⟨homin ▸ bound_of_readBound hmin, by rw [homax]; rintro m ⟨⟩⟩
    · obtain ⟨max, hmax, h⟩ := bind_eq_ok.mp h
      obtain ⟨n, hn, rfl⟩ := map_eq_ok.mp hmax
      obtain ⟨homin, homax⟩ := bounds_of_make (lift_range_eq_ok.mp h)
      exact ⟨homin ▸ bound_of_readBound hmin,
        by rw [homax]; rintro m ⟨⟩; exact bound_of_readBound hn⟩

/-! ## Cutting the parts off -/

/-- The mark of something nullable. -/
def markText (nullable : Bool) : List Char := if nullable then ['?'] else []

/-- The sizes of an array in brackets. -/
def arrayText : Option Occurrence → List Char
  | none => []
  | some o => '[' :: (sizeText o).toList ++ [']']

theorem bracket_not_mem_markText (nullable : Bool) : '[' ∉ markText nullable := by
  cases nullable <;> decide

/-- The mark for a missing value is cut off. -/
theorem cutMark_append {base : List Char} {nullable : Bool}
    (h : nullable = false → base.getLast? ≠ some '?') :
    cutMark (base ++ markText nullable) = (nullable, base) := by
  cases nullable with
  | true => simp only [cutMark, markText, if_true, dropTail?_append]
  | false => simp [cutMark, markText, dropTail?_singleton_eq_none.mpr (h rfl)]

/-- What is left after the mark has been cut off has no further mark, if there was none. -/
theorem cutMark_eq {cs base : List Char} {nullable : Bool} (h : cutMark cs = (nullable, base)) :
    cs = base ++ markText nullable ∧ (nullable = false → base.getLast? ≠ some '?') := by
  unfold cutMark at h
  split at h
  · rename_i hcut
    cases h
    exact ⟨dropTail?_eq_some.mp hcut, nofun⟩
  · rename_i hcut
    cases h
    exact ⟨(List.append_nil cs).symm, fun _ => dropTail?_singleton_eq_none.mp hcut⟩

/-- The sizes of an array are cut off. -/
theorem cutSizes_append (whole : String) {base : List Char} {range : Option Occurrence}
    (hopen : range.isSome → '[' ∉ base) (hclose : range = none → base.getLast? ≠ some ']')
    (hbounded : ∀ o, range = some o → Bounded o) :
    cutSizes whole (base ++ arrayText range) = .ok (range, base) := by
  cases range with
  | none =>
      simp only [cutSizes, arrayText, List.append_nil,
        dropTail?_singleton_eq_none.mpr (hclose rfl), pure_eq_ok]
  | some o =>
      have hne : ∀ c ∈ base, (c != '[') = true := by
        intro c hc
        simp only [bne_iff_ne]
        rintro rfl
        exact hopen rfl hc
      have hcut : dropTail? [']'] (base ++ arrayText (some o)) =
          some (base ++ '[' :: (sizeText o).toList) := by
        rw [dropTail?_eq_some, arrayText, List.append_assoc]
      have hdrop : (base ++ '[' :: (sizeText o).toList).dropWhile (· != '[') =
          '[' :: (sizeText o).toList := by
        rw [List.dropWhile_append_of_pos hne]
        rfl
      have htake : (base ++ '[' :: (sizeText o).toList).takeWhile (· != '[') = base := by
        rw [List.takeWhile_append_of_pos hne]
        exact List.append_nil base
      simp only [cutSizes, hcut, hdrop, htake, readBounds_sizeText whole (hbounded o rfl), ok_bind,
        pure_eq_ok]

/-- What is left after the sizes have been cut off. -/
theorem cutSizes_eq {whole : String} {cs base : List Char} {range : Option Occurrence}
    (h : cutSizes whole cs = .ok (range, base)) :
    (range.isSome → '[' ∉ base) ∧ (range = none → cs = base ∧ base.getLast? ≠ some ']') ∧
      (∀ o, range = some o → Bounded o) ∧ base ⊆ cs := by
  unfold cutSizes at h
  split at h
  · rename_i hcut
    cases h
    exact ⟨nofun, fun _ => ⟨rfl, dropTail?_singleton_eq_none.mp hcut⟩, nofun, fun _ => id⟩
  · rename_i hcut
    rw [dropTail?_eq_some] at hcut
    split at h
    · cases h
    · rename_i rest _ sizes _
      obtain ⟨o, ho, h⟩ := bind_eq_ok.mp h
      cases h
      refine ⟨fun _ hmem => ?_, nofun, ?_, fun c hc => ?_⟩
      · have hne := List.all_eq_true.mp List.all_takeWhile '[' hmem
        exact absurd hne (by decide)
      · rintro _ ⟨⟩
        exact bounded_of_readBounds ho
      · rw [hcut]
        exact List.mem_append_left _ ((List.takeWhile_sublist _).subset hc)

/-- The mark for a missing array is cut off. -/
theorem cutArrayMark_append {base : List Char} {range : Option Occurrence} {arrayNullable : Bool}
    (h : range = none → arrayNullable = false ∧ ∀ rest, base ≠ rest ++ [']', '?']) :
    cutArrayMark (base ++ arrayText range ++ markText arrayNullable) =
      (arrayNullable, base ++ arrayText range) := by
  cases range with
  | none =>
      obtain ⟨rfl, hne⟩ := h rfl
      simp [cutArrayMark, arrayText, markText, dropTail?_eq_none.mpr hne]
  | some o =>
      cases arrayNullable with
      | true =>
          have hcut : dropTail? [']', '?'] (base ++ arrayText (some o) ++ markText true) =
              some (base ++ '[' :: (sizeText o).toList) := by
            rw [dropTail?_eq_some]
            simp [arrayText, markText]
          simp only [cutArrayMark, hcut]
          simp [arrayText]
      | false =>
          have hcut : dropTail? [']', '?'] (base ++ arrayText (some o)) = none := by
            refine dropTail?_eq_none.mpr fun rest heq => ?_
            have hlast : some ']' = some '?' := calc
              some ']' = (base ++ '[' :: (sizeText o).toList ++ [']']).getLast? := by
                rw [List.getLast?_concat]
              _ = (rest ++ [']', '?']).getLast? := by
                rw [← heq, arrayText, List.append_assoc]
              _ = some '?' := by simp
            exact absurd hlast (by decide)
          have hnil : base ++ arrayText (some o) ++ markText false = base ++ arrayText (some o) :=
            List.append_nil _
          simp only [cutArrayMark, hnil, hcut]

theorem cutArrayMark_eq {cs rest : List Char} {arrayNullable : Bool}
    (h : cutArrayMark cs = (arrayNullable, rest)) (hlast : rest.getLast? ≠ some ']') :
    arrayNullable = false ∧ ∀ front, rest ≠ front ++ [']', '?'] := by
  unfold cutArrayMark at h
  split at h
  · cases h
    simp at hlast
  · rename_i hcut
    cases h
    exact ⟨rfl, dropTail?_eq_none.mp hcut⟩

theorem cutArrayMark_subset (cs : List Char) : (cutArrayMark cs).2 ⊆ cs := by
  unfold cutArrayMark
  split
  · rename_i rest hcut
    intro c hc
    rw [dropTail?_eq_some.mp hcut]
    rcases List.mem_append.mp hc with hc | hc
    · exact List.mem_append_left _ hc
    · exact List.mem_append_right _ (List.mem_cons.mpr (.inl (List.mem_singleton.mp hc)))
  · exact fun _ => id

/-! ## Parts of a text -/

namespace Parts

/-- The text that the parts make up. -/
def text (p : Parts) : List Char :=
  p.base ++ markText p.nullable ++ arrayText p.range ++ markText p.arrayNullable

/-- The text can be cut into the parts again. -/
structure Legible (p : Parts) : Prop where
  base_ne_nil : p.base ≠ []
  mark_apart : p.nullable = false → p.base.getLast? ≠ some '?'
  open_apart : p.range.isSome → '[' ∉ p.base
  close_apart : p.range = none → p.base.getLast? ≠ some ']'
  array_of_mark : p.range = none → p.arrayNullable = false
  bounded : ∀ o, p.range = some o → Bounded o

end Parts

/-- Legible parts are read back from their text. -/
theorem readParts_text {p : Parts} (h : p.Legible) : readParts (String.ofList p.text) = .ok p := by
  obtain ⟨base, nullable, range, arrayNullable⟩ := p
  have hbase : base.isEmpty = false := by simpa using h.base_ne_nil
  have harray : cutArrayMark (base ++ markText nullable ++ arrayText range ++
      markText arrayNullable) = (arrayNullable, base ++ markText nullable ++ arrayText range) := by
    refine cutArrayMark_append fun hrange => ⟨h.array_of_mark hrange, ?_⟩
    intro rest heq
    cases nullable with
    | true =>
        -- The mark that ends the text is that of the item: no bracket stands before it.
        have hmarked : base ++ ['?'] = rest ++ [']'] ++ ['?'] := by simpa [markText] using heq
        have hbase := List.append_cancel_right hmarked
        exact h.close_apart hrange (by rw [hbase, List.getLast?_concat])
    | false =>
        have hbase : base = rest ++ [']', '?'] := by simpa [markText] using heq
        exact h.mark_apart rfl (by simp [hbase])
  have hsizes : cutSizes (String.ofList (Parts.text ⟨base, nullable, range, arrayNullable⟩))
      (base ++ markText nullable ++ arrayText range) = .ok (range, base ++ markText nullable) := by
    refine cutSizes_append _ (fun hsome hmem => ?_) (fun hrange => ?_) h.bounded
    · rcases List.mem_append.mp hmem with hmem | hmem
      · exact h.open_apart hsome hmem
      · exact bracket_not_mem_markText nullable hmem
    · cases nullable with
      | true => simp [markText]
      | false => simpa [markText] using h.close_apart hrange
  rw [readParts, String.toList_ofList]
  simp only [Parts.text] at hsizes ⊢
  simp only [harray, hsizes, ok_bind, cutMark_append h.mark_apart, hbase]
  rfl

/-- Parts that were read are legible. -/
theorem legible_of_readParts {whole : String} {p : Parts} (h : readParts whole = .ok p) :
    p.Legible ∧ p.base ⊆ whole.toList := by
  unfold readParts at h
  rcases harray : cutArrayMark whole.toList with ⟨arrayNullable, marked⟩
  simp only [harray] at h
  obtain ⟨⟨range, cs⟩, hsizes, h⟩ := bind_eq_ok.mp h
  obtain ⟨hopen, hclose, hbounded, hsub⟩ := cutSizes_eq hsizes
  rcases hcut : cutMark cs with ⟨nullable, base⟩
  obtain ⟨rfl, hmark⟩ := cutMark_eq hcut
  simp only [hcut] at h
  split at h
  · cases h
  · rename_i hne
    cases h
    -- Without sizes nothing was cut off before the mark of the item.
    have hplain : range = none → arrayNullable = false ∧
        ∀ front, base ++ markText nullable ≠ front ++ [']', '?'] := by
      intro hr
      obtain ⟨rfl, hlast⟩ := hclose hr
      exact cutArrayMark_eq harray hlast
    refine ⟨⟨by simpa using hne, hmark, fun hsome hmem => ?_, fun hr hlast => ?_,
      fun hr => (hplain hr).1, hbounded⟩, fun c hc => ?_⟩
    · exact hopen hsome (List.mem_append_left _ hmem)
    · obtain ⟨front, rfl⟩ := List.getLast?_eq_some_iff.mp hlast
      cases nullable with
      | true => exact (hplain hr).2 front (by simp [markText])
      | false => exact (hclose hr).2 (by simp [markText])
    · have hmarked := cutArrayMark_subset whole.toList
      rw [harray] at hmarked
      exact hmarked (hsub (List.mem_append_left _ hc))

/-! ## Types -/

/-- The parts of the text of a type. -/
def parts (t : DataType) : Parts :=
  ⟨t.base.name.toList, t.nullable, t.arrayRange, t.arrayNullable⟩

theorem toList_mark (nullable : Bool) :
    (if nullable then "?" else "").toList = markText nullable := by
  cases nullable <;> rfl

/-- The text of a type is that of its parts. -/
theorem toList_text (t : DataType) : t.text.toList = t.parts.text := by
  obtain ⟨base, nullable, array⟩ := t
  cases array with
  | none =>
      simp only [text, String.toList_append, toList_mark, parts, Parts.text, arrayRange,
        arrayNullable, Option.map_none, Option.any_none]
      exact (List.append_nil _).symm
  | some a => simp [text, parts, Parts.text, toList_mark, arrayRange, arrayNullable, arrayText]

/-- A type is made of the base that is offered and of the shape that is asked for. -/
theorem make_eq_ok {c : Candidate} {nullable : Bool} {range : Option Occurrence}
    {arrayNullable : Bool} {t : DataType} (h : make c nullable range arrayNullable = .ok t) :
    c.base? = some t.base ∧ t.nullable = nullable ∧ t.arrayRange = range ∧
      t.arrayNullable = arrayNullable := by
  cases c with
  | foreign shown => cases h
  | value b =>
      cases range with
      | none =>
          cases arrayNullable with
          | true => cases h
          | false => cases h; exact ⟨rfl, rfl, rfl, rfl⟩
      | some r => cases h; exact ⟨rfl, rfl, rfl, rfl⟩
  | struct scope d =>
      cases range with
      | none =>
          cases arrayNullable with
          | true => cases h
          | false => cases h; exact ⟨rfl, rfl, rfl, rfl⟩
      | some r =>
          simp only [make, ok_bind] at h
          split at h
          · cases h
          · cases h; exact ⟨rfl, rfl, rfl, rfl⟩

/-- A type that was read has a base that a name stands for, and legible parts. -/
theorem read_eq_ok {p : Place} {text : String} {t : DataType} (h : read p text = .ok t) :
    ∃ name c, p.base? name = some c ∧
      Parts.Legible ⟨name.toList, t.nullable, t.arrayRange, t.arrayNullable⟩ ∧
      make c t.nullable t.arrayRange t.arrayNullable = .ok t ∧ name.toList ⊆ text.toList := by
  obtain ⟨parts, hparts, h⟩ := bind_eq_ok.mp h
  dsimp only at h
  split at h
  · cases h
  · rename_i c hc
    obtain ⟨-, hn, hr, ha⟩ := make_eq_ok h
    obtain ⟨hlegible, hsub⟩ := legible_of_readParts hparts
    refine ⟨_, c, hc, ?_, ?_, ?_⟩
    · rw [String.toList_ofList, hn, hr, ha]
      exact hlegible
    · rw [hn, hr, ha]
      exact h
    · rw [String.toList_ofList]
      exact hsub

/-- The name of a predefined type can stand in the text of any type. -/
theorem Parts.Legible.predefined {base : List Char} {nullable : Bool} {range : Option Occurrence}
    {arrayNullable : Bool} (h : Legible ⟨base, nullable, range, arrayNullable⟩) (t : Predefined) :
    Legible ⟨t.name.toList, nullable, range, arrayNullable⟩ where
  base_ne_nil := t.name_plain.1
  mark_apart _ := t.name_plain.2.1
  open_apart _ := t.name_plain.2.2.1
  close_apart _ := t.name_plain.2.2.2
  array_of_mark := h.array_of_mark
  bounded := h.bounded

/-- The text of a type is read as the type if it can be cut into its parts again and the base is
found under its name. -/
theorem read_of_legible {p : Place} {t : DataType} {c : Candidate} (h : t.parts.Legible)
    (hc : p.base? t.base.name = some c)
    (hmake : make c t.nullable t.arrayRange t.arrayNullable = .ok t) : read p t.text = .ok t := by
  have hread : readParts t.text = .ok t.parts := by
    rw [← readParts_text h, ← toList_text, String.ofList_toList]
  rw [read, hread]
  simp only [ok_bind, parts, String.ofList_toList, hc]
  exact hmake

/-- A type that was read was found under its name and has parts that can be cut off again. -/
theorem legible_of_read {p : Place} {text : String} {t : DataType} (h : read p text = .ok t) :
    t.parts.Legible ∧ ∃ c, p.base? t.base.name = some c ∧
      make c t.nullable t.arrayRange t.arrayNullable = .ok t := by
  obtain ⟨name, c, hc, hlegible, hmake, -⟩ := read_eq_ok h
  obtain ⟨hself, hname⟩ := Place.base?_name hc (make_eq_ok hmake).1
  refine ⟨?_, c, hself, hmake⟩
  rcases hname with rfl | ⟨s, hs⟩
  · exact hlegible
  · rw [parts, hs]
    exact hlegible.predefined s

/-- The text of a type that was read is read as the same type. -/
theorem read_text {p : Place} {text : String} {t : DataType} (h : read p text = .ok t) :
    read p t.text = .ok t := by
  obtain ⟨hlegible, c, hc, hmake⟩ := legible_of_read h
  exact read_of_legible hlegible hc hmake

end DataType

end SmlSchema
