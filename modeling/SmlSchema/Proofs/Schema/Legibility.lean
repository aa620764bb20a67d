import SmlSchema.Proofs.Schema.Effects

/-! # Types that can be read from their text

Any text can be the name of a base, also one that looks like a mark or like the sizes of an array.
The text of a type is read as the type itself if and only if the name is not misread at its end and
stands for the base in the scope in which the text is read.
-/

namespace SmlSchema

/-! ## What is offered for a base -/

namespace Candidate

variable {c : Candidate}

theorem base?_eq_value {b : ValueBase} : c.base? = some (.value b) ↔ c = .value b := by
  cases c <;> simp [base?]

theorem base?_eq_struct {scope : Path} {name : String} :
    c.base? = some (.struct scope name) ↔ ∃ r, c = .struct scope r ∧ r.name = name := by
  cases c with
  | value b => simp [base?]
  | foreign shown => simp [base?]
  | struct path r =>
      simp only [base?, Option.some.injEq, Base.struct.injEq, struct.injEq]
      constructor
      · rintro ⟨rfl, rfl⟩
        exact ⟨r, ⟨rfl, rfl⟩, rfl⟩
      · rintro ⟨_, ⟨rfl, rfl⟩, rfl⟩
        exact ⟨rfl, rfl⟩

/-- A struct that is offered is the one that the schema has at the path, if it has one there. -/
def UpToDate (s : Schema) : Candidate → Prop
  | .struct scope r => ∀ r', s.structAt? scope r.name = some r' → r' = r
  | .value _ | .foreign _ => True

end Candidate

/-- The type can be made of its base as it is in the schema. -/
def DataType.Valid (s : Schema) (t : DataType) : Prop :=
  ∃ c : Candidate, c.UpToDate s ∧ DataType.make c t.nullable t.arrayRange t.arrayNullable = .ok t

namespace Place

variable {s : Schema} {p : Place} {name : String}

/-- A struct that a name stands for as a base is found by the name. -/
theorem struct?_of_base? {scope : Path} {r : Struct} (h : p.base? name = some (.struct scope r)) :
    ∃ q, p.struct? name = some (q, r) ∧ q.path = scope := by
  unfold base? at h
  split at h
  · cases h
  · obtain ⟨⟨q, r'⟩, hq, heq⟩ := Option.map_eq_some_iff.mp h
    cases heq
    exact ⟨q, hq, rfl⟩

/-- What a place offers for a base is what the schema has. -/
theorem eq_of_upToDate {b : Base} {c c' : Candidate} (hp : s.placeAt? p.path = some p)
    (hfound : p.base? b.name = some c') (hc' : c'.base? = some b) (hc : c.base? = some b)
    (hs : c.UpToDate s) : c' = c := by
  cases b with
  | value v => rw [Candidate.base?_eq_value.mp hc', Candidate.base?_eq_value.mp hc]
  | struct scope name =>
      obtain ⟨r', rfl, -⟩ := Candidate.base?_eq_struct.mp hc'
      obtain ⟨r, rfl, rfl⟩ := Candidate.base?_eq_struct.mp hc
      obtain ⟨q, hq, rfl⟩ := struct?_of_base? hfound
      rw [hs r' (structAt?_of_struct? hp hq)]

end Place

namespace DataType

variable {s : Schema} {p : Place} {t : DataType}

/-- The text of a valid type is read as the type if and only if its name is not empty, has no
opening bracket where sizes follow, does not end with a closing one where none follow, does not end
with a mark unless another one follows, and stands for the base. -/
theorem read_text_iff (hp : s.placeAt? p.path = some p) (hvalid : t.Valid s)
    (hbounded : ∀ o, t.arrayRange = some o → Bounded o) :
    read p t.text = .ok t ↔
      t.base.name ≠ "" ∧ (t.array.isSome → '[' ∉ t.base.name.toList) ∧
        (t.array = none → t.base.name.toList.getLast? ≠ some ']') ∧
        (t.nullable = false → t.base.name.toList.getLast? ≠ some '?') ∧ p.Resolves t.base := by
  have harray : t.arrayRange.isSome = t.array.isSome := Option.isSome_map
  have hnone : t.arrayRange = none ↔ t.array = none := Option.map_eq_none_iff
  constructor
  · intro h
    obtain ⟨hlegible, c, hc, hmake⟩ := legible_of_read h
    exact ⟨fun hempty => hlegible.base_ne_nil (String.toList_eq_nil_iff.mpr hempty),
      fun hsome => hlegible.open_apart (harray.trans hsome),
      fun hplain => hlegible.close_apart (hnone.mpr hplain), hlegible.mark_apart,
      c, hc, (make_eq_ok hmake).1⟩
  · rintro ⟨hname, hopen, hclose, hmark, c', hfound, hc'⟩
    obtain ⟨c, hs, hmake⟩ := hvalid
    obtain rfl : c' = c := Place.eq_of_upToDate hp hfound hc' (make_eq_ok hmake).1 hs
    refine read_of_legible ?_ hfound hmake
    exact {
      base_ne_nil := fun hnil => hname (String.toList_eq_nil_iff.mp hnil)
      mark_apart := hmark
      open_apart := fun hsome => hopen (harray.symm.trans hsome)
      close_apart := fun hplain => hclose (hnone.mp hplain)
      array_of_mark := fun hplain => by rw [parts, arrayNullable, hnone.mp hplain, Option.any_none]
      bounded := hbounded }

/-- An enumeration whose name ends with a mark, and an element with a scope of its own. -/
def markedSchema : Schema where
  definitions := { valueTypes := [.enum "a?" ["x"]], elements := [{ name := "E" }] }

/-- An array of at least two items, where items and the array can be null. -/
def markedType : DataType :=
  ⟨.value (.valueType [] "a?"), true, some ⟨⟨2, none, by simp⟩, true⟩⟩

/-- A name that ends with a question mark is read back, although the mark also stands for a missing
value. -/
theorem read_text_iff_marked :
    markedType.text = "a??[2..N]?" ∧
      read (.within (.top markedSchema.definitions) "E" {}) markedType.text = .ok markedType := by
  refine ⟨by decide +kernel, (read_text_iff (s := markedSchema) rfl ?_ ?_).mpr ?_⟩
  · exact ⟨.value (.valueType [] "a?"), trivial, rfl⟩
  · rintro o ⟨⟩
    have htwo : (Scalar.natDigits 2).length ≤ Scalar.maxIntegerDigits := by decide +kernel
    exact ⟨htwo, by rintro m ⟨⟩⟩
  · refine ⟨by decide, by decide, by rintro ⟨⟩, by rintro ⟨⟩, .value (.valueType [] "a?"), ?_, rfl⟩
    decide +kernel

end DataType

end SmlSchema
