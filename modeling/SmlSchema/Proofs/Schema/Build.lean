import SmlSchema.Proofs.Result
import SmlSchema.Schema.Build

/-! # What building operations accept

Each operation on definitions succeeds under one condition, and then its result is the old part with
the new one at the end.
-/

namespace SmlSchema

/-- No label is repeated exactly if all are different. -/
theorem firstRepeated?_eq_none {seen xs : List String} :
    firstRepeated? seen xs = none ↔ xs.Nodup ∧ ∀ x ∈ xs, x ∉ seen := by
  induction xs generalizing seen with
  | nil => simp [firstRepeated?]
  | cons x xs ih =>
      rw [firstRepeated?, List.nodup_cons]
      split
      · rename_i hseen
        simp only [reduceCtorEq, false_iff, not_and]
        exact fun _ hnew => hnew x (by simp) (by simpa using hseen)
      · rename_i hseen
        rw [ih]
        constructor
        · rintro ⟨hnodup, hnew⟩
          refine ⟨⟨fun hmem => hnew x hmem (by simp), hnodup⟩, fun y hy => ?_⟩
          rcases List.mem_cons.mp hy with rfl | hy
          · simpa using hseen
          · exact fun hys => hnew y hy (by simp [hys])
        · rintro ⟨⟨hx, hnodup⟩, hnew⟩
          refine ⟨hnodup, fun y hy hys => ?_⟩
          rcases List.mem_cons.mp hys with rfl | hys
          · exact hx hy
          · exact hnew y (by simp [hy]) hys

/-- An enumeration is made of different labels, at least one. -/
theorem ValueType.makeEnum_eq_ok {name : String} {labels : List String} {v : ValueType} :
    makeEnum name labels = .ok v ↔ labels ≠ [] ∧ labels.Nodup ∧ v = .enum name labels := by
  unfold makeEnum
  cases labels with
  | nil => simp
  | cons l ls =>
      cases h : firstRepeated? [] (l :: ls) with
      | none =>
          have hnodup := (firstRepeated?_eq_none.mp h).1
          simp [hnodup, eq_comm]
      | some x =>
          have hdup : ¬ (l :: ls).Nodup := by
            intro hnodup
            rw [firstRepeated?_eq_none.mpr ⟨hnodup, by simp⟩] at h
            cases h
          simp [hdup]

/-! ## Lists with keys -/

section

variable {α : Type} {k : α → String} {xs : List α} {x : α}

theorem nodup_concat : ((xs ++ [x]).map k).Nodup ↔ (xs.map k).Nodup ∧ k x ∉ xs.map k := by
  rw [List.map_append, List.nodup_append]
  constructor
  · rintro ⟨hxs, -, hne⟩
    exact ⟨hxs, fun hmem => hne _ hmem _ (by simp) rfl⟩
  · rintro ⟨hxs, hx⟩
    refine ⟨hxs, by simp, fun a ha b hb => ?_⟩
    rw [List.map_singleton, List.mem_singleton] at hb
    rintro rfl
    exact hx (hb ▸ ha)

theorem not_mem_of_prefix_nodup {ys : List α} (h : xs ++ [x] <+: ys) (hys : (ys.map k).Nodup) :
    k x ∉ xs.map k :=
  (nodup_concat.mp (hys.sublist (h.sublist.map k))).2

/-- Changing what has a key changes the last one alone, if the others have other keys. -/
theorem map_change_last {f : α → α} (h : k x ∉ xs.map k) :
    ((xs ++ [x]).map fun d => if k d = k x then f d else d) = xs ++ [f x] := by
  have hxs : ∀ d ∈ xs, (if k d = k x then f d else d) = d := by
    intro d hd
    have hne : k d ≠ k x := fun heq => h (by rw [← heq]; exact List.mem_map_of_mem hd)
    rw [if_neg hne]
  rw [List.map_append, List.map_congr_left hxs, List.map_id']
  simp

end

namespace Scope

variable {s t : Scope} {path : Path} {name : String}

/-- The check passes if the name is free. -/
theorem checkFree_eq_ok {category : Category} {u : Unit} :
    s.checkFree path category name = .ok u ↔ name ∉ s.names category := by
  unfold checkFree
  split
  · rename_i h
    simpa using h
  · rename_i h
    simpa using h

/-- An enumeration of different labels is added under a free name, behind the others. -/
theorem addEnum_eq_ok {labels : List String} :
    s.addEnum path name labels = .ok t ↔
      labels ≠ [] ∧ labels.Nodup ∧ name ∉ s.names .valueType ∧
        t = { s with valueTypes := s.valueTypes ++ [.enum name labels] } := by
  rw [addEnum, bind_eq_ok]
  constructor
  · rintro ⟨v, hv, h⟩
    obtain ⟨hne, hnodup, rfl⟩ := ValueType.makeEnum_eq_ok.mp hv
    obtain ⟨u, hfree, ht⟩ := bind_eq_ok.mp h
    cases ht
    exact ⟨hne, hnodup, checkFree_eq_ok.mp hfree, rfl⟩
  · rintro ⟨hne, hnodup, hfree, rfl⟩
    exact ⟨_, ValueType.makeEnum_eq_ok.mpr ⟨hne, hnodup, rfl⟩,
      bind_eq_ok.mpr ⟨(), checkFree_eq_ok.mpr hfree, rfl⟩⟩

/-- A new definition of a name stands last among those of its kind. -/
theorem add_eq_ok {category : Category} :
    s.add path category name = .ok t ↔
      name ∉ s.names category ∧
        match category with
        | .valueType => False
        | .struct => t = { s with structs := s.structs ++ [{ name }] }
        | .attribute => t = { s with attributes := s.attributes ++ [{ name }] }
        | .element => t = { s with elements := s.elements ++ [{ name }] } := by
  unfold add
  rw [bind_eq_ok]
  constructor
  · rintro ⟨u, hfree, h⟩
    refine ⟨checkFree_eq_ok.mp hfree, ?_⟩
    cases category <;> cases h <;> rfl
  · rintro ⟨hfree, h⟩
    refine ⟨(), checkFree_eq_ok.mpr hfree, ?_⟩
    cases category <;> cases h <;> rfl

theorem element?_eq_none : s.element? name = none ↔ name ∉ s.names .element := by
  simp [element?, names]

theorem exists_element? : (∃ e, s.element? name = some e) ↔ name ∈ s.names .element := by
  rw [← Option.ne_none_iff_exists', ne_eq, element?_eq_none, Classical.not_not]

end Scope

namespace Struct

variable {s : Struct} {v : StructValue}

/-- Where the optional values stand last, the last value tells whether there are any. -/
theorem getLast?_any_optional {vs : List StructValue}
    (h : vs.Pairwise fun v w => v.optional → w.optional) :
    vs.getLast?.any (·.optional) = true ↔ ∃ w ∈ vs, w.optional := by
  rcases List.eq_nil_or_concat vs with rfl | ⟨ws, w, rfl⟩
  · simp
  · rw [List.concat_eq_append] at h ⊢
    rw [List.getLast?_concat, Option.any_some]
    constructor
    · intro hw
      exact ⟨w, by simp, hw⟩
    · rintro ⟨v, hv, hopt⟩
      rcases List.mem_append.mp hv with hv | hv
      · exact (List.pairwise_append.mp h).2.2 v hv w (by simp) hopt
      · rw [← List.mem_singleton.mp hv]
        exact hopt

/-- A value is added under a new name, and behind an optional one only if it is optional. -/
theorem newValue_eq_ok {name : String} {optional nullable : Bool} {base : ValueBase}
    (h : s.values.Pairwise fun v w => v.optional → w.optional) :
    s.newValue name optional (.value base) nullable = .ok v ↔
      name ∉ s.values.map (·.name) ∧ (∀ w ∈ s.values, w.optional → optional) ∧
        v = { name, optional, base, nullable } := by
  have hany : s.values.any (·.name == name) = true ↔ name ∈ s.values.map (·.name) := by
    simp [List.any_eq_true]
  have hlast : (s.values.getLast?.any (·.optional) && !optional) = true ↔
      ¬ ∀ w ∈ s.values, w.optional → optional := by
    rw [Bool.and_eq_true, getLast?_any_optional h]
    cases optional <;> simp
  unfold newValue
  constructor
  · intro hv
    split at hv
    · cases hv
    · rename_i hname
      split at hv
      · cases hv
      · rename_i hopt
        cases hv
        exact ⟨mt hany.mpr hname, Classical.not_not.mp (mt hlast.mpr hopt), rfl⟩
  · rintro ⟨hname, hopt, rfl⟩
    rw [if_neg (mt hany.mp hname), if_neg fun hbad => hlast.mp hbad hopt]

end Struct

theorem Place.found_eq_ok {α : Type} {p : Place} {category : Category} {name : String}
    {r : Option α} {a : α} : p.found category name r = .ok a ↔ r = some a := by
  cases r <;> simp [found]

namespace Content

variable {p : Place} {owner name : String} {o : Occurrence} {attributes : List AttributeEntry}
  {elements : List ElementEntry} {c : Content}

/-- A child element is added under a new name that stands for an element. -/
theorem addElement_eq_ok :
    addElement p owner name o (.unordered attributes elements) = .ok c ↔
      name ∉ elements.map (·.name) ∧ ∃ q e, p.element? name = some (q, e) ∧
        c = .unordered attributes (elements ++ [⟨q.path, name, o⟩]) := by
  have hany : elements.any (·.name == name) = true ↔ name ∈ elements.map (·.name) := by
    simp [List.any_eq_true]
  dsimp only [addElement]
  constructor
  · intro h
    split at h
    · cases h
    · rename_i hname
      obtain ⟨⟨q, e⟩, hfound, h⟩ := bind_eq_ok.mp h
      cases h
      exact ⟨mt hany.mpr hname, q, e, Place.found_eq_ok.mp hfound, rfl⟩
  · rintro ⟨hname, q, e, hfound, rfl⟩
    rw [if_neg (mt hany.mp hname)]
    exact bind_eq_ok.mpr ⟨(q, e), Place.found_eq_ok.mpr hfound, rfl⟩

/-- An attribute is added under a new name. -/
theorem addEntry_eq_ok {part : String} {entry : Except Error AttributeEntry} :
    addEntry part owner name entry (.unordered attributes elements) = .ok c ↔
      name ∉ attributes.map (·.name) ∧ ∃ a, entry = .ok a ∧
        c = .unordered (attributes ++ [a]) elements := by
  have hany : attributes.any (·.name == name) = true ↔ name ∈ attributes.map (·.name) := by
    simp [List.any_eq_true]
  dsimp only [addEntry]
  constructor
  · intro h
    split at h
    · cases h
    · rename_i hname
      obtain ⟨a, ha, h⟩ := bind_eq_ok.mp h
      cases h
      exact ⟨mt hany.mpr hname, a, ha, rfl⟩
  · rintro ⟨hname, a, ha, rfl⟩
    rw [if_neg (mt hany.mp hname)]
    exact bind_eq_ok.mpr ⟨a, ha, rfl⟩

/-- An attribute is added under a new name that stands for an attribute. -/
theorem addAttribute_eq_ok :
    addAttribute p owner name o (.unordered attributes elements) = .ok c ↔
      name ∉ attributes.map (·.name) ∧ ∃ q a, p.attribute? name = some (q, a) ∧
        c = .unordered (attributes ++ [.defined q.path name o]) elements := by
  rw [addAttribute, addEntry_eq_ok]
  refine and_congr_right fun _ => ?_
  constructor
  · rintro ⟨entry, hentry, rfl⟩
    obtain ⟨⟨q, a⟩, hfound, heq⟩ := bind_eq_ok.mp hentry
    cases heq
    exact ⟨q, a, Place.found_eq_ok.mp hfound, rfl⟩
  · rintro ⟨q, a, hfound, rfl⟩
    exact ⟨_, bind_eq_ok.mpr ⟨(q, a), Place.found_eq_ok.mpr hfound, rfl⟩, rfl⟩

/-- An inline attribute is added under a new name. -/
theorem addInline_eq_ok {a : AttributeDef} :
    addInline owner a o (.unordered attributes elements) = .ok c ↔
      a.name ∉ attributes.map (·.name) ∧
        c = .unordered (attributes ++ [.inline a o]) elements := by
  rw [addInline, addEntry_eq_ok]
  refine and_congr_right fun _ => ?_
  constructor
  · rintro ⟨_, ⟨⟩, rfl⟩
    rfl
  · rintro rfl
    exact ⟨_, rfl, rfl⟩

end Content

namespace Schema

variable {s t : Schema}

/-- Only an element of the outermost scope becomes the root. -/
theorem setRoot_eq_ok {name : String} :
    s.setRoot name = .ok t ↔
      name ∈ s.definitions.names .element ∧ t = { s with root := some name } := by
  rw [setRoot, bind_eq_ok, ← Scope.exists_element?]
  constructor
  · rintro ⟨found, hfound, ht⟩
    cases ht
    obtain ⟨e, he, -⟩ := Option.map_eq_some_iff.mp (Place.found_eq_ok.mp hfound)
    exact ⟨⟨e, he⟩, rfl⟩
  · rintro ⟨⟨e, he⟩, rfl⟩
    have hfound : (Place.top s.definitions).element? name = some (.top s.definitions, e) :=
      Option.map_eq_some_iff.mpr ⟨e, he, rfl⟩
    exact ⟨_, Place.found_eq_ok.mpr hfound, rfl⟩

/-- The default root is the only element at the top. -/
theorem setDefaultRoot_eq_ok :
    s.setDefaultRoot = .ok t ↔
      ∃ e, s.definitions.elements = [e] ∧ t = { s with root := some e.name } := by
  unfold setDefaultRoot
  match s.definitions.elements with
  | [] => simp
  | [e] => simp [eq_comm]
  | e :: f :: es => simp

end Schema

end SmlSchema
