import Mathlib.Data.List.Basic
import SmlSchema.Proofs.Attempt
import SmlSchema.Proofs.Document.Reading

/-! # Arrays are cut into rows

The values of an attribute are read as items that take up the same number of values each. The items
lie side by side from the first value to the last one, so that every value belongs to exactly one of
them. The reader may be anything: it may change a state of its own, and it may fail in ways of its
own.
-/

namespace SmlSchema

/-- A computation fails with a violation or in a way of its own. -/
instance {φ : Type} : MonadLift (Except Violation) (Except (Violation ⊕ φ)) :=
  ⟨fun x => x.mapError .inl⟩

/-! ## One call after the other -/

namespace Attempt

variable {ι σ ε β : Type}

/-- The calls are made in order, each on the state that the one before it leaves, until all are made
or one fails. -/
inductive InTurn (call : ι → Attempt σ ε β) : List ι → σ → Except ε (List β) → σ → Prop where
  | done {s : σ} : InTurn call [] s (.ok []) s
  | stop {i : ι} {is : List ι} {s t : σ} {e : ε} (failed : (call i).on s = (.error e, t)) :
      InTurn call (i :: is) s (.error e) t
  | next {i : ι} {is : List ι} {s t u : σ} {b : β} {r : Except ε (List β)}
      (given : (call i).on s = (.ok b, t)) (rest : InTurn call is t r u) :
      InTurn call (i :: is) s (r.map (b :: ·)) u

theorem on_map {γ : Type} (f : β → γ) (x : Attempt σ ε β) (s : σ) :
    (f <$> x).on s = ((x.on s).1.map f, (x.on s).2) := by
  rcases h : x.on s with ⟨e | b, t⟩
  · exact on_bind_of_error h
  · exact on_bind_of_ok h

/-- A row of computations is done in order. -/
theorem inTurn_mapM (call : ι → Attempt σ ε β) (is : List ι) (s : σ) :
    InTurn call is s ((is.mapM call).on s).1 ((is.mapM call).on s).2 := by
  induction is generalizing s with
  | nil => exact .done
  | cons i is ih =>
      rw [List.mapM_cons]
      rcases h : (call i).on s with ⟨e | b, t⟩
      · rw [on_bind_of_error h]
        exact .stop h
      · rw [on_bind_of_ok h, bind_pure_comp, on_map]
        exact .next h (ih t)

/-- Computations without a state leave it as it is. -/
theorem on_mapM_lift {φ : Type} (f : ι → Except Violation β) (is : List ι) (s : σ) :
    (is.mapM fun i => (liftM (f i) : Attempt σ (Violation ⊕ φ) β)).on s =
      ((is.mapM f).mapError .inl, s) := by
  induction is with
  | nil => rfl
  | cons i is ih =>
      rw [List.mapM_cons, List.mapM_cons]
      cases h : f i with
      | error v => rfl
      | ok b =>
          have hfirst :
              (liftM (.ok b : Except Violation β) : Attempt σ (Violation ⊕ φ) β).on s =
                (.ok b, s) := rfl
          rw [on_bind_of_ok hfirst, bind_pure_comp, on_map, ih, ok_bind]
          cases is.mapM f <;> rfl

end Attempt

/-! ## Parts of the same length -/

/-- The parts that start at the multiples of their length are the whole list. -/
theorem flatten_parts {xs : List α} {count arity : Nat} (h : xs.length = count * arity) :
    ((List.range count).map fun k => (xs.drop (k * arity)).take arity).flatten = xs := by
  have htake : ∀ n, ((List.range n).map fun k => (xs.drop (k * arity)).take arity).flatten =
      xs.take (n * arity) := by
    intro n
    induction n with
    | zero => simp
    | succ n ih =>
        rw [List.range_succ, List.map_append, List.flatten_append, ih, Nat.succ_mul, List.take_add]
        simp
  rw [htake, ← h, List.take_length]

/-- A part ends where the next one starts, or at the end. -/
theorem part_end_le {count arity k : Nat} (hk : k < count) : k * arity + arity ≤ count * arity := by
  rw [← Nat.succ_mul]
  exact Nat.mul_le_mul_right arity hk

/-- Each part of an even division has the length of a row. -/
theorem length_part {xs : List α} {count arity k : Nat} (h : xs.length = count * arity)
    (hk : k < count) : ((xs.drop (k * arity)).take arity).length = arity := by
  have hle : k * arity + arity ≤ count * arity := part_end_le hk
  rw [List.length_take, List.length_drop, h]
  omega

/-- The parts of items that are all of the same length are the items. -/
theorem part_flatten {items : List (List α)} {arity : Nat}
    (h : ∀ item ∈ items, item.length = arity) {k : Nat} {item : List α}
    (hk : items[k]? = some item) : (items.flatten.drop (k * arity)).take arity = item := by
  induction items generalizing k with
  | nil => cases hk
  | cons first items ih =>
      obtain ⟨hfirst, hitems⟩ := List.forall_mem_cons.mp h
      rw [List.flatten_cons]
      cases k with
      | zero =>
          cases hk
          rw [Nat.zero_mul, List.drop_zero, List.take_left' hfirst]
      | succ k =>
          rw [Nat.succ_mul, Nat.add_comm, ← List.drop_drop, List.drop_left' hfirst]
          exact ih hitems hk

namespace Attribute

open Line (Cell)

/-- The values fall into items of `arity` values each, and the number of items is within the
bounds. -/
structure Fits (a : Attribute) (min : Int) (max : Option Int) (arity : Nat) : Prop where
  dvd : arity ∣ a.valueCount
  least : min ≤ (a.valueCount / arity : Nat)
  greatest : ∀ m, max = some m → (a.valueCount / arity : Nat) ≤ m

/-- Why the values do not fit: they are no multiple of the arity, or there are too few or too many
items. -/
inductive Misfit (a : Attribute) (min : Int) (max : Option Int) (arity : Nat) :
    Violation → Prop where
  | uneven (rest : ¬ arity ∣ a.valueCount) :
      Misfit a min max arity (.unevenRows a.name a.valueCount arity)
  | outside (dvd : arity ∣ a.valueCount)
      (bounds : ¬ (min ≤ (a.valueCount / arity : Nat) ∧
        ∀ m, max = some m → (a.valueCount / arity : Nat) ≤ m)) :
      Misfit a min max arity (.itemBounds a.name min max (a.valueCount / arity : Nat))

/-- A single null stands for the whole array. -/
def IsNullArray (a : Attribute) (arrayNullable : Bool) : Prop :=
  arrayNullable = true ∧ a.values = [none]

/-- The indexes of the values with which the items start. -/
def starts (a : Attribute) (arity : Nat) : List Nat :=
  (List.range (a.valueCount / arity)).map (· * arity)

variable {a : Attribute} {min : Int} {max : Option Int} {nullable arrayNullable : Bool}
  {arity : Nat}

/-! ## The number of items -/

/-- The number of rows, or the reason why there is none. -/
theorem itemCount_eq (harity : 1 ≤ arity) :
    a.itemCount min max arity =
      if arity ∣ a.valueCount then
        if withinBounds (a.valueCount / arity : Nat) min max then .ok (a.valueCount / arity)
        else .error (.itemBounds a.name min max (a.valueCount / arity : Nat))
      else .error (.unevenRows a.name a.valueCount arity) := by
  have hmod : (a.valueCount : Int).fmod arity = (a.valueCount % arity : Nat) := by
    rw [Int.fmod_eq_emod_of_nonneg _ (Int.natCast_nonneg arity), Int.natCast_emod]
  have hdiv : (a.valueCount : Int).fdiv arity = (a.valueCount / arity : Nat) := by
    rw [Int.fdiv_eq_ediv_of_nonneg _ (Int.natCast_nonneg arity), Int.natCast_ediv]
  have hzero : ¬ (arity : Int) = 0 := by omega
  simp only [itemCount, hmod, hdiv, hzero, if_false, ne_eq, Int.natCast_eq_zero,
    Nat.dvd_iff_mod_eq_zero, Int.toNat_natCast]
  by_cases heven : a.valueCount % arity = 0
  · cases withinBounds (a.valueCount / arity : Nat) min max <;> simp [heven]
  · simp [heven]

theorem withinBounds_eq_true {count : Int} :
    withinBounds count min max = true ↔ min ≤ count ∧ ∀ m, max = some m → count ≤ m := by
  cases max <;> simp [withinBounds]

/-- Values that fit are divided into rows. -/
theorem Fits.itemCount (h : a.Fits min max arity) (harity : 1 ≤ arity) :
    a.itemCount min max arity = .ok (a.valueCount / arity) := by
  rw [itemCount_eq harity, if_pos h.dvd, if_pos (withinBounds_eq_true.mpr ⟨h.least, h.greatest⟩)]

/-- Values that do not fit are refused with the reason. -/
theorem itemCount_of_not_fits (h : ¬ a.Fits min max arity) (harity : 1 ≤ arity) :
    ∃ v, a.Misfit min max arity v ∧ a.itemCount min max arity = .error v := by
  rw [itemCount_eq harity]
  by_cases hdvd : arity ∣ a.valueCount
  · have hbounds : ¬ (min ≤ (a.valueCount / arity : Nat) ∧
        ∀ m, max = some m → (a.valueCount / arity : Nat) ≤ m) :=
      fun hwithin => h ⟨hdvd, hwithin.1, hwithin.2⟩
    refine ⟨_, .outside hdvd hbounds, ?_⟩
    rw [if_pos hdvd, if_neg (withinBounds_eq_true.not.mpr hbounds)]
  · exact ⟨_, .uneven hdvd, if_neg hdvd⟩

/-- Values are divided into rows exactly if they fit. -/
theorem itemCount_eq_ok_iff_fits (harity : 1 ≤ arity) {count : Nat} :
    a.itemCount min max arity = .ok count ↔
      a.Fits min max arity ∧ count = a.valueCount / arity := by
  constructor
  · intro hcount
    by_cases hfits : a.Fits min max arity
    · rw [hfits.itemCount harity] at hcount
      exact ⟨hfits, (Except.ok.inj hcount).symm⟩
    · obtain ⟨v, -, herror⟩ := itemCount_of_not_fits hfits harity
      cases hcount.symm.trans herror
  · rintro ⟨hfits, rfl⟩
    exact hfits.itemCount harity

theorem Fits.valueCount_eq (h : a.Fits min max arity) :
    a.valueCount = a.valueCount / arity * arity := (Nat.div_mul_cancel h.dvd).symm

/-- A row that starts within fitting values ends within them. -/
theorem Fits.add_le_of_mem_starts (h : a.Fits min max arity) {i : Nat} (hi : i ∈ a.starts arity) :
    i + arity ≤ a.valueCount := by
  obtain ⟨k, hk, rfl⟩ := List.mem_map.mp hi
  rw [h.valueCount_eq]
  exact part_end_le (List.mem_range.mp hk)

/-- The items take up all values, each of them once and in order. -/
theorem Fits.flatMap_starts (h : a.Fits min max arity) :
    (a.starts arity).flatMap (List.range' · arity) = List.range a.valueCount := by
  have hlength : (List.range a.valueCount).length = a.valueCount / arity * arity := by
    rw [List.length_range, ← h.valueCount_eq]
  have hparts : ∀ k ∈ List.range (a.valueCount / arity), List.range' (k * arity) arity =
      ((List.range a.valueCount).drop (k * arity)).take arity := by
    intro k hk
    refine List.ext_getElem ?_ fun i _ _ => ?_
    · rw [List.length_range', length_part hlength (List.mem_range.mp hk)]
    · simp
  rw [starts, List.flatMap_map, List.flatMap_def, List.map_congr_left hparts, flatten_parts hlength]

/-! ## Reading the items -/

section

variable {α : Type} {m : Type → Type} [Monad m] [MonadLiftT (Except Violation) m]
  (read : ItemReader α m)

/-- An array that is missing is not read. -/
theorem arrayM_of_null (h : a.IsNullArray arrayNullable) :
    a.arrayM read min max nullable arrayNullable arity = pure none := by
  simp [arrayM, isLoneNull, h.1, h.2]

/-- An array that is not missing is read row by row. -/
theorem arrayM_of_not_null (h : ¬ a.IsNullArray arrayNullable) :
    a.arrayM read min max nullable arrayNullable arity = (do
      let count ← (liftM (a.itemCount min max arity) : m Nat)
      some <$> (List.range count).mapM fun (k : Nat) => read a (k * arity) nullable) := by
  rw [arrayM, if_neg]
  simpa [isLoneNull, IsNullArray] using h

/-- What fits is read at the starts of the items, one after the other. -/
theorem arrayM_of_fits [LawfulMonad m]
    (hlift : ∀ k : Nat, (liftM (.ok k : Except Violation Nat) : m Nat) = pure k)
    (h : ¬ a.IsNullArray arrayNullable) (hfits : a.Fits min max arity)
    (harity : 1 ≤ arity) :
    a.arrayM read min max nullable arrayNullable arity =
      some <$> (a.starts arity).mapM fun (i : Nat) => read a i nullable := by
  rw [arrayM_of_not_null read h, hfits.itemCount harity, hlift, pure_bind, starts, List.mapM_map]
  simp only [Function.comp_def, Int.natCast_mul]

end

/-! ## Rows of values -/

variable {kind : String} {kinds : List String} {i : Nat}

/-- Within the attribute there is a value to read. -/
theorem scalar_ne_noValueAt (hi : i < a.valueCount) (owner : String) (index : Int) :
    scalar kind a i nullable ≠ .error (.noValueAt owner index) := by
  have hstring : a.stringOrNull i nullable ≠ .error (.noValueAt owner index) := by
    obtain ⟨c, hc⟩ : ∃ c, a.cell i = .ok c := ⟨_, cell_eq_ok.mpr (List.getElem?_eq_getElem hi)⟩
    rw [stringOrNull, hc, ok_bind]
    cases c <;> cases nullable <;> simp
  unfold scalar
  split
  · simp
  · refine bind_ne_error hstring fun c => ?_
    cases c with
    | none => simp
    | some text =>
        dsimp only
        split <;> simp

/-- Reading a row that lies within the values never misses a value. -/
theorem row_ne_noValueAt (hi : i + kinds.length ≤ a.valueCount) (owner : String) (index : Int) :
    row (kinds.map scalar) a i nullable ≠ .error (.noValueAt owner index) := by
  refine bind_ne_error (mapM_ne_error fun r hr => ?_) fun _ => by simp
  obtain ⟨read, j⟩ := r
  have hj : j < kinds.length := by simpa using List.snd_lt_of_mem_zipIdx hr
  obtain ⟨kind, -, rfl⟩ := List.mem_map.mp (List.fst_mem_of_mem_zipIdx hr)
  dsimp only
  rw [← Int.natCast_add]
  exact scalar_ne_noValueAt (by omega) owner index

/-- A text is its own value, and a null is none. -/
theorem scalar_string (hkind : Predefined.ofName? kind = some .string) {c : Cell}
    (hc : a.values[i]? = some c) : scalar kind a i true = .ok (c.map .string) := by
  have hstring : a.stringOrNull i true = .ok c := stringOrNull_eq_ok.mpr ⟨hc, fun _ => rfl⟩
  rw [scalar, hkind]
  dsimp only
  rw [hstring, ok_bind]
  cases c <;> rfl

/-- A row of texts is read as the values themselves. -/
theorem row_string (hkinds : ∀ k ∈ kinds, Predefined.ofName? k = some .string)
    (hi : i + kinds.length ≤ a.valueCount) :
    row (kinds.map scalar) a i true =
      .ok (some (((a.values.drop i).take kinds.length).map (Option.map .string))) := by
  have hread : (kinds.map scalar).zipIdx.mapM (fun r => r.1 a ((i : Int) + r.2) true) =
      .ok (((a.values.drop i).take kinds.length).map (Option.map .string)) := by
    rw [mapM_eq_ok, List.forall₂_iff_get]
    have hlength : a.values.length - i ≥ kinds.length := by
      rw [← valueCount]
      omega
    refine ⟨by simp [hlength], fun j hj _ => ?_⟩
    rw [List.length_zipIdx, List.length_map] at hj
    simp only [List.get_eq_getElem, List.getElem_zipIdx, List.getElem_map, List.getElem_take,
      List.getElem_drop, Nat.zero_add, ← Int.natCast_add]
    exact scalar_string (hkinds _ (List.getElem_mem hj)) (List.getElem?_eq_getElem _)
  rw [row, hread]
  rfl

/-! ## Arrays -/

section

variable {σ φ α : Type} (read : ItemReader α (Attempt σ (Violation ⊕ φ))) (nullable) (s : σ)

/-- An array that does not fit is refused before any row is read. -/
theorem on_arrayM_of_not_fits (h : ¬ a.IsNullArray arrayNullable) (hfits : ¬ a.Fits min max arity)
    (harity : 1 ≤ arity) :
    ∃ v, a.Misfit min max arity v ∧
      (a.arrayM read min max nullable arrayNullable arity).on s = (.error (.inl v), s) := by
  obtain ⟨v, hv, hcount⟩ := itemCount_of_not_fits hfits harity
  refine ⟨v, hv, ?_⟩
  rw [arrayM_of_not_null read h, hcount]
  rfl

/-- An array that fits is read row by row, until a row fails. -/
theorem on_arrayM_of_fits (h : ¬ a.IsNullArray arrayNullable) (hfits : a.Fits min max arity)
    (harity : 1 ≤ arity) :
    ∃ r t, Attempt.InTurn (fun (i : Nat) => read a i nullable) (a.starts arity) s r t ∧
      (a.arrayM read min max nullable arrayNullable arity).on s = (r.map some, t) := by
  refine ⟨_, _, Attempt.inTurn_mapM _ _ s, ?_⟩
  rw [arrayM_of_fits read (fun _ => rfl) h hfits harity, Attempt.on_map]

/-- Only a missing array is read as none. -/
theorem on_arrayM_eq_none (harity : 1 ≤ arity) :
    ((a.arrayM read min max nullable arrayNullable arity).on s).1 = .ok none ↔
      a.IsNullArray arrayNullable := by
  constructor
  · intro hnone
    by_contra h
    by_cases hfits : a.Fits min max arity
    · obtain ⟨r, t, -, hon⟩ := on_arrayM_of_fits nullable read s h hfits harity
      rw [hon] at hnone
      cases r <;> cases hnone
    · obtain ⟨v, -, hon⟩ := on_arrayM_of_not_fits nullable read s h hfits harity
      rw [hon] at hnone
      cases hnone
  · intro h
    rw [arrayM_of_null read h]
    rfl

/-- A reader without a state is called in the same way. -/
theorem on_arrayM_lift (read : ItemReader α) :
    (a.arrayM (fun a i n => (liftM (read a i n) : Attempt σ (Violation ⊕ φ) (Option α))) min max
      nullable arrayNullable arity).on s =
      ((a.array read min max nullable arrayNullable arity).mapError .inl, s) := by
  by_cases h : a.IsNullArray arrayNullable
  · rw [array, arrayM_of_null _ h, arrayM_of_null _ h]
    rfl
  · rw [array, arrayM_of_not_null _ h, arrayM_of_not_null _ h]
    cases a.itemCount min max arity with
    | error v => rfl
    | ok count =>
        have hcount :
            (liftM (.ok count : Except Violation Nat) : Attempt σ (Violation ⊕ φ) Nat).on s =
              (.ok count, s) := rfl
        rw [Attempt.on_bind_of_ok hcount, Attempt.on_map, Attempt.on_mapM_lift]
        change _ = ((some <$> (List.range count).mapM fun (k : Nat) =>
          read a (k * arity) nullable).mapError Sum.inl, s)
        cases (List.range count).mapM fun (k : Nat) => read a (k * arity) nullable <;> rfl

end

/-- No read of a row lies outside the attribute. -/
theorem array_ne_noValueAt (harity : 1 ≤ arity) (hkinds : kinds.length = arity) (owner : String)
    (index : Int) :
    a.array (row (kinds.map scalar)) min max nullable arrayNullable arity ≠
      .error (.noValueAt owner index) := by
  by_cases h : a.IsNullArray arrayNullable
  · rw [array, arrayM_of_null _ h]
    simp
  · by_cases hfits : a.Fits min max arity
    · rw [array, arrayM_of_fits _ (fun _ => rfl) h hfits harity]
      refine bind_ne_error (mapM_ne_error fun i hi => row_ne_noValueAt ?_ owner index)
        fun _ => by simp
      rw [hkinds]
      exact hfits.add_le_of_mem_starts hi
    · obtain ⟨v, hv, hcount⟩ := itemCount_of_not_fits hfits harity
      rw [array, arrayM_of_not_null _ h, hcount]
      cases hv <;> exact fun h => nomatch h

/-- Rows of texts and nulls are the values of the attribute, cut into parts. -/
theorem array_string (harity : 1 ≤ arity) (hkinds : kinds.length = arity)
    (hstring : ∀ k ∈ kinds, Predefined.ofName? k = some .string)
    (h : ¬ a.IsNullArray arrayNullable) (hfits : a.Fits min max arity) :
    ∃ rows : List (List Cell),
      a.array (row (kinds.map scalar)) min max true arrayNullable arity =
        .ok (some (rows.map fun r => some (r.map (Option.map .string)))) ∧
      (∀ r ∈ rows, r.length = arity) ∧ rows.flatten = a.values := by
  have hread : (a.starts arity).mapM (fun (i : Nat) => row (kinds.map scalar) a i true) =
      .ok ((a.starts arity).map fun i =>
        some (((a.values.drop i).take arity).map (Option.map .string))) := by
    rw [mapM_eq_ok, List.forall₂_map_right_iff, List.forall₂_same]
    intro i hi
    rw [← hkinds]
    exact row_string hstring (hkinds ▸ hfits.add_le_of_mem_starts hi)
  refine ⟨(a.starts arity).map fun i => (a.values.drop i).take arity, ?_, ?_, ?_⟩
  · rw [array, arrayM_of_fits _ (fun _ => rfl) h hfits harity, hread, List.map_map]
    rfl
  · intro r hr
    obtain ⟨i, hi, rfl⟩ := List.mem_map.mp hr
    obtain ⟨k, hk, rfl⟩ := List.mem_map.mp hi
    exact length_part hfits.valueCount_eq (List.mem_range.mp hk)
  · rw [starts, List.map_map]
    exact flatten_parts hfits.valueCount_eq

/-- Reading an attribute as items of `arity` values each. Nothing is given exactly if a single null
stands for the array. Otherwise values that do not fit are refused, and the reader is not called,
whatever it does; values that fit are read at the starts of the items, and the results are those of
the reader in order, or its first failure. A reader without a state is called in the same way. The
items take up every value once. Rows of values are read within the attribute, and rows of texts and
nulls are together the values of the attribute. -/
theorem arrayM_rows {σ φ α : Type} (a : Attribute) (min : Int) (max : Option Int)
    (nullable arrayNullable : Bool) {arity : Nat} (harity : 1 ≤ arity) :
    (∀ (read : ItemReader α (Attempt σ (Violation ⊕ φ))) (s : σ),
      (((a.arrayM read min max nullable arrayNullable arity).on s).1 = .ok none ↔
        a.IsNullArray arrayNullable) ∧
      (¬ a.IsNullArray arrayNullable → ¬ a.Fits min max arity → ∃ v, a.Misfit min max arity v ∧
        (a.arrayM read min max nullable arrayNullable arity).on s = (.error (.inl v), s)) ∧
      (¬ a.IsNullArray arrayNullable → a.Fits min max arity → ∃ r t,
        Attempt.InTurn (fun (i : Nat) => read a i nullable) (a.starts arity) s r t ∧
        (a.arrayM read min max nullable arrayNullable arity).on s = (r.map some, t))) ∧
    (∀ (read : ItemReader α) (s : σ),
      (a.arrayM (fun a i n => (liftM (read a i n) : Attempt σ (Violation ⊕ φ) (Option α))) min max
        nullable arrayNullable arity).on s =
        ((a.array read min max nullable arrayNullable arity).mapError .inl, s)) ∧
    (a.Fits min max arity →
      (a.starts arity).flatMap (List.range' · arity) = List.range a.valueCount) ∧
    ∀ kinds : List String, kinds.length = arity →
      (∀ owner index, a.array (row (kinds.map scalar)) min max nullable arrayNullable arity ≠
        .error (.noValueAt owner index)) ∧
      ((∀ k ∈ kinds, Predefined.ofName? k = some .string) → ¬ a.IsNullArray arrayNullable →
        a.Fits min max arity → ∃ rows : List (List Cell),
          a.array (row (kinds.map scalar)) min max true arrayNullable arity =
            .ok (some (rows.map fun r => some (r.map (Option.map .string)))) ∧
          (∀ r ∈ rows, r.length = arity) ∧ rows.flatten = a.values) := by
  refine ⟨fun read s => ⟨?_, ?_, ?_⟩, ?_, ?_, fun kinds hkinds => ⟨?_, ?_⟩⟩
  · exact on_arrayM_eq_none nullable read s harity
  · exact fun h hfits => on_arrayM_of_not_fits nullable read s h hfits harity
  · exact fun h hfits => on_arrayM_of_fits nullable read s h hfits harity
  · exact fun read s => on_arrayM_lift nullable s read
  · exact Fits.flatMap_starts
  · exact array_ne_noValueAt harity hkinds
  · exact array_string harity hkinds

/-- Four values that are read as two rows. -/
def pairs : Attribute := ⟨"p", [some "x", none, some "", some "-"], List.cons_ne_nil _ _⟩

theorem fits_pairs : pairs.Fits 1 (some 2) 2 := by
  refine ⟨by decide, by decide, fun m hm => ?_⟩
  cases hm
  decide

/-- An array of two rows of texts. -/
theorem arrayM_rows_pairs :
    1 ≤ 2 ∧ ¬ pairs.IsNullArray true ∧ pairs.Fits 1 (some 2) 2 ∧
      (∀ k ∈ ["String", "STRING"], Predefined.ofName? k = some .string) ∧
      ∃ rows : List (List Cell),
        pairs.array (row (["String", "STRING"].map scalar)) 1 (some 2) true true 2 =
          .ok (some (rows.map fun r => some (r.map (Option.map .string)))) ∧
        (∀ r ∈ rows, r.length = 2) ∧ rows.flatten = [some "x", none, some "", some "-"] := by
  have harity : 1 ≤ 2 := by decide
  have hnull : ¬ pairs.IsNullArray true := fun h => nomatch h.2
  have hkinds : ∀ k ∈ ["String", "STRING"], Predefined.ofName? k = some .string := by decide
  obtain ⟨-, -, -, hrows⟩ := @arrayM_rows Unit Empty Unit pairs 1 (some 2) true true 2 harity
  exact ⟨harity, hnull, fits_pairs, hkinds,
    (hrows ["String", "STRING"] rfl).2 hkinds hnull fits_pairs⟩

end Attribute

end SmlSchema
