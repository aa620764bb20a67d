import SmlSchema.Proofs.Line.LineEnds
import SmlSchema.Proofs.Schema.TypeText
import SmlSchema.Schema.Loader

/-! # Schemas that documents can hold

Definitions are made one after the other. A value type, a struct and an attribute refer to what
their scope and the scopes around it define by then, and so does the content of an element; the
element itself is known by its name before anything inside it is read. A schema is well formed if it
can be made in this order and every text in it can stand in a document.
-/

namespace SmlSchema

/-! ## Comparing schemas

Elements hold lists of elements, so that their equality is decided along the tree. With it, a schema
that a text is said to hold can be checked against the one that is loaded.
-/

mutual

def ElementDef.decEq : (d e : ElementDef) → Decidable (d = e)
  | ⟨name, valueTypes, structs, attributes, elements, content⟩,
    ⟨name', valueTypes', structs', attributes', elements', content'⟩ =>
    match ElementDef.decEqAll elements elements' with
    | .isTrue h =>
      decidable_of_iff (name = name' ∧ valueTypes = valueTypes' ∧ structs = structs' ∧
        attributes = attributes' ∧ content = content') (by simp [h])
    | .isFalse h => .isFalse (by simp [h])
termination_by structural d => d

def ElementDef.decEqAll : (ds es : List ElementDef) → Decidable (ds = es)
  | [], [] => .isTrue rfl
  | [], _ :: _ => .isFalse nofun
  | _ :: _, [] => .isFalse nofun
  | d :: ds, e :: es =>
    match d.decEq e, ElementDef.decEqAll ds es with
    | .isTrue h, .isTrue h' => .isTrue (by rw [h, h'])
    | .isFalse h, _ => .isFalse fun heq => h (List.cons.inj heq).1
    | _, .isFalse h => .isFalse fun heq => h (List.cons.inj heq).2
termination_by structural ds => ds

end

instance : DecidableEq ElementDef := ElementDef.decEq

deriving instance DecidableEq for Scope

deriving instance DecidableEq for Schema

/-- The text has no line end but the line feed. -/
def Text.Kept (s : String) : Prop := hasForeignEnd s = false

instance (s : String) : Decidable (Text.Kept s) := inferInstanceAs (Decidable (_ = _))

/-- A text is kept if it has no line end but line feeds. -/
theorem Text.kept_iff {s : String} : Kept s ↔ ∀ c ∈ s.toList, isLineEnd c → c = '\n' := by
  simp only [Kept, hasForeignEnd, List.any_eq_false, Bool.and_eq_true, bne_iff_ne, not_and,
    not_not]

theorem DataType.isLineEnd_of_mem_markText {nullable : Bool} {c : Char}
    (h : c ∈ markText nullable) : Text.isLineEnd c = false := by
  cases nullable with
  | false => cases h
  | true =>
    rw [List.mem_singleton.mp h]
    decide

theorem Predefined.kept_name (t : Predefined) : Text.Kept t.name := by
  unfold Text.Kept
  cases t <;> decide

/-! ## Types seen from a place -/

namespace Place

/-- Names are looked up in the innermost scope by what the lookup finds there. -/
theorem nearest?_withScope {f : Scope → Option α} {p : Place} {s : Scope} (h : f s = f p.scope) :
    ((p.withScope s).nearest? f).map (fun r => (r.1.path, r.2)) =
      (p.nearest? f).map fun r => (r.1.path, r.2) := by
  cases p with
  | top t =>
      change f s = f t at h
      simp only [withScope, nearest?, h]
      cases f t <;> rfl
  | within outer name t =>
      change f s = f t at h
      simp only [withScope, nearest?, h]
      cases f t <;> rfl

theorem valueType?_withScope {p : Place} {s : Scope} (h : s.valueTypes = p.scope.valueTypes)
    (name : String) :
    ((p.withScope s).valueType? name).map (fun r => (r.1.path, r.2)) =
      (p.valueType? name).map fun r => (r.1.path, r.2) :=
  nearest?_withScope (by rw [Scope.valueType?, Scope.valueType?, h])

theorem struct?_withScope {p : Place} {s : Scope} (h : s.structs = p.scope.structs)
    (name : String) :
    ((p.withScope s).struct? name).map (fun r => (r.1.path, r.2)) =
      (p.struct? name).map fun r => (r.1.path, r.2) :=
  nearest?_withScope (by rw [Scope.struct?, Scope.struct?, h])

/-- Places that find the same value types offer the same types of single values. -/
theorem valueBase?_congr {p q : Place} {name : String}
    (h : (p.valueType? name).map (fun r => (r.1.path, r.2)) =
      (q.valueType? name).map fun r => (r.1.path, r.2)) :
    p.valueBase? name = q.valueBase? name := by
  have hpath := congrArg (Option.map fun r => ValueBase.valueType r.1 name) h
  rw [Option.map_map, Option.map_map] at hpath
  unfold valueBase?
  split
  · rfl
  · exact hpath

/-- Places that find the same value types and structs offer the same bases. -/
theorem base?_congr {p q : Place} {name : String}
    (hv : (p.valueType? name).map (fun r => (r.1.path, r.2)) =
      (q.valueType? name).map fun r => (r.1.path, r.2))
    (hs : (p.struct? name).map (fun r => (r.1.path, r.2)) =
      (q.struct? name).map fun r => (r.1.path, r.2)) :
    p.base? name = q.base? name := by
  have hpath := congrArg (Option.map fun r => Candidate.struct r.1 r.2) hs
  rw [Option.map_map, Option.map_map] at hpath
  unfold base?
  rw [valueBase?_congr hv]
  split
  · rfl
  · exact hpath

/-- Types of single values depend on the value types of the scope only. -/
theorem valueBase?_withScope {p : Place} {s : Scope} (h : s.valueTypes = p.scope.valueTypes)
    (name : String) : (p.withScope s).valueBase? name = p.valueBase? name :=
  valueBase?_congr (valueType?_withScope h name)

/-- Bases depend on the value types and structs of the scope only. -/
theorem base?_withScope {p : Place} {s : Scope} (hv : s.valueTypes = p.scope.valueTypes)
    (hs : s.structs = p.scope.structs) (name : String) :
    (p.withScope s).base? name = p.base? name :=
  base?_congr (valueType?_withScope hv name) (struct?_withScope hs name)

end Place

/-- Reading a type depends on the value types and structs of the scope only. -/
theorem DataType.read_withScope {p : Place} {s : Scope} (hv : s.valueTypes = p.scope.valueTypes)
    (hs : s.structs = p.scope.structs) (text : String) :
    DataType.read (p.withScope s) text = DataType.read p text := by
  simp only [DataType.read, Place.base?_withScope hv hs, Place.path_withScope]

namespace Loader

theorem readValueType_withScope {p : Place} {s : Scope} (h : s.valueTypes = p.scope.valueTypes)
    (text : String) : readValueType (p.withScope s) text = readValueType p text := by
  simp only [readValueType, Place.valueBase?_withScope h, Place.found, Place.path_withScope]

/-- A type of single values is read as a name and a mark. -/
theorem readValueType_eq_ok {p : Place} {text : String} {base : ValueBase} {nullable : Bool} :
    readValueType p text = .ok (base, nullable) ↔
      ∃ cs, DataType.cutMark text.toList = (nullable, cs) ∧
        p.valueBase? (String.ofList cs) = some base := by
  rcases hcut : DataType.cutMark text.toList with ⟨nullable', cs⟩
  simp only [readValueType, hcut]
  cases hbase : p.valueBase? (String.ofList cs) with
  | none =>
      simp only [Place.found, error_bind, reduceCtorEq, false_iff, not_exists, not_and,
        Prod.mk.injEq]
      rintro ds ⟨-, rfl⟩
      simp [hbase]
  | some b =>
      simp only [Place.found, ok_bind, pure_eq_ok, Except.ok.injEq, Prod.mk.injEq]
      constructor
      · rintro ⟨rfl, rfl⟩
        exact ⟨cs, ⟨rfl, rfl⟩, hbase⟩
      · rintro ⟨ds, ⟨rfl, rfl⟩, hb⟩
        rw [hbase, Option.some.injEq] at hb
        exact ⟨hb, rfl⟩

/-- A type of single values is read from its name and its mark. -/
theorem readValueType_text {p : Place} {text : String} {base : ValueBase} {nullable : Bool}
    (h : readValueType p text = .ok (base, nullable)) :
    readValueType p (base.name ++ if nullable then "?" else "") = .ok (base, nullable) := by
  obtain ⟨cs, hcut, hbase⟩ := readValueType_eq_ok.mp h
  obtain ⟨-, hmark⟩ := DataType.cutMark_eq hcut
  obtain ⟨hself, hname⟩ := Place.valueBase?_name hbase
  refine readValueType_eq_ok.mpr ⟨base.name.toList, ?_, by rw [String.ofList_toList, hself]⟩
  rw [String.toList_append, DataType.toList_mark]
  refine DataType.cutMark_append fun hnull => ?_
  rcases hname with hname | ⟨t, rfl⟩
  · rw [hname, String.toList_ofList]
    exact hmark hnull
  · exact t.name_plain.2.1

/-- The text of a type that was read from a kept text is kept. -/
theorem kept_readValueType {p : Place} {text : String} {base : ValueBase} {nullable : Bool}
    (h : readValueType p text = .ok (base, nullable)) (hkept : Text.Kept text) :
    Text.Kept (base.name ++ if nullable then "?" else "") := by
  obtain ⟨cs, hcut, hbase⟩ := readValueType_eq_ok.mp h
  obtain ⟨htext, -⟩ := DataType.cutMark_eq hcut
  rw [Text.kept_iff] at hkept ⊢
  intro c hc hend
  rw [String.toList_append, DataType.toList_mark, List.mem_append] at hc
  rcases hc with hc | hc
  · rcases (Place.valueBase?_name hbase).2 with hname | ⟨t, rfl⟩
    · rw [hname, String.toList_ofList] at hc
      exact hkept c (by rw [htext]; exact List.mem_append_left _ hc) hend
    · exact Text.kept_iff.mp t.kept_name c hc hend
  · rw [DataType.isLineEnd_of_mem_markText hc] at hend
    cases hend

end Loader

/-- The written sizes of an array hold no line end. -/
theorem DataType.isLineEnd_of_mem_sizeText {o : Occurrence} {c : Char}
    (h : c ∈ (sizeText o).toList) : Text.isLineEnd c = false := by
  have hdigit : ∀ n, c ∈ Scalar.natDigits n → Text.isLineEnd c = false := by
    intro n hc
    have hblank := (Scalar.isDecimal_apart (Scalar.isDecimal_of_mem_natDigits hc)).1
    by_contra hend
    rw [Bool.not_eq_false] at hend
    rw [Text.isBlank_of_isLineEnd hend] at hblank
    cases hblank
  rw [toList_sizeText] at h
  rcases List.mem_append.mp h with h | h
  · exact hdigit _ h
  · split at h
    · cases h
    · simp only [List.mem_cons] at h
      rcases h with rfl | rfl | h
      · decide
      · decide
      · cases hmax : o.max with
        | none =>
            rw [hmax, highText, List.mem_singleton] at h
            subst h
            decide
        | some m =>
            rw [hmax] at h
            exact hdigit m h

theorem DataType.isLineEnd_of_mem_arrayText {range : Option Occurrence} {c : Char}
    (h : c ∈ arrayText range) : Text.isLineEnd c = false := by
  cases range with
  | none => cases h
  | some o =>
      rcases List.mem_append.mp h with h | h
      · rcases List.mem_cons.mp h with rfl | h
        · decide
        · exact isLineEnd_of_mem_sizeText h
      · rw [List.mem_singleton.mp h]
        decide

/-- The text of a type that was read from a kept text is kept. -/
theorem DataType.kept_text {p : Place} {text : String} {t : DataType} (h : read p text = .ok t)
    (hkept : Text.Kept text) : Text.Kept t.text := by
  obtain ⟨name, c, hc, -, hmake, hsub⟩ := read_eq_ok h
  rw [Text.kept_iff] at hkept ⊢
  have hbase : ∀ d ∈ t.base.name.toList, Text.isLineEnd d → d = '\n' := by
    rcases (Place.base?_name hc (make_eq_ok hmake).1).2 with hname | ⟨s, hs⟩
    · rw [hname]
      exact fun d hd => hkept d (hsub hd)
    · rw [hs]
      exact Text.kept_iff.mp s.kept_name
  intro d hd hend
  rw [toList_text] at hd
  simp only [parts, Parts.text, List.mem_append] at hd
  rcases hd with ((hd | hd) | hd) | hd
  · exact hbase d hd hend
  · rw [isLineEnd_of_mem_markText hd] at hend
    cases hend
  · rw [isLineEnd_of_mem_arrayText hd] at hend
    cases hend
  · rw [isLineEnd_of_mem_markText hd] at hend
    cases hend

/-! ## Definitions -/

/-- The type is what its text means at the place. -/
structure DataType.WellFormed (p : Place) (t : DataType) : Prop where
  read_text : DataType.read p t.text = .ok t
  kept : Text.Kept t.text

/-- The type of the value is what its text means at the place. -/
structure StructValue.WellFormed (p : Place) (v : StructValue) : Prop where
  read_typeText : Loader.readValueType p v.typeText = .ok (v.base, v.nullable)
  kept_name : Text.Kept v.name
  kept_typeText : Text.Kept v.typeText

/-- An enumeration with different labels. -/
inductive ValueType.WellFormed : ValueType → Prop where
  | enum {name : String} {labels : List String} (ne_nil : labels ≠ []) (nodup : labels.Nodup)
      (kept_name : Text.Kept name) (kept_labels : ∀ l ∈ labels, Text.Kept l) :
      WellFormed (.enum name labels)

/-- Values of different names, the optional ones last. -/
structure Struct.WellFormed (p : Place) (s : Struct) : Prop where
  kept_name : Text.Kept s.name
  nodup : (s.values.map (·.name)).Nodup
  optional_last : s.values.Pairwise fun v w => v.optional → w.optional
  values : ∀ v ∈ s.values, v.WellFormed p

structure AttributeDef.WellFormed (p : Place) (a : AttributeDef) : Prop where
  kept_name : Text.Kept a.name
  type : ∃ t, a.type = some t ∧ t.WellFormed p

/-- The value types, structs and attributes of the scope at the place are well formed. -/
structure Place.LeavesWellFormed (p : Place) : Prop where
  nodup : ∀ category, category ≠ .element → (p.scope.names category).Nodup
  valueTypes : ∀ v ∈ p.scope.valueTypes, v.WellFormed
  structs : ∀ s ∈ p.scope.structs, s.WellFormed p
  attributes : ∀ a ∈ p.scope.attributes, a.WellFormed p

/-! ## Content and elements -/

/-- The range has a word of its own. -/
def Occurrence.HasWord (o : Occurrence) : Prop := o ∈ words.map (·.2)

/-- Four occurrences have a word. -/
theorem Occurrence.hasWord_iff {o : Occurrence} :
    o.HasWord ↔ o = required ∨ o = optional ∨ o = repeatedPlus ∨ o = repeatedStar := by
  simp [HasWord, words]

/-- A defined attribute is the nearest of its name; one on the spot has its own type. -/
inductive AttributeEntry.WellFormed (p : Place) : AttributeEntry → Prop where
  | defined {q : Place} {a : AttributeDef} {name : String} {o : Occurrence}
      (kept : Text.Kept name) (word : o.HasWord) (found : p.attribute? name = some (q, a)) :
      WellFormed p (.defined q.path name o)
  | inline {a : AttributeDef} {o : Occurrence} (definition : a.WellFormed p) (word : o.HasWord) :
      WellFormed p (.inline a o)

theorem AttributeEntry.WellFormed.hasWord {p : Place} {a : AttributeEntry} (h : a.WellFormed p) :
    a.occurrence.HasWord := by
  cases h with
  | defined _ word _ => exact word
  | inline _ word => exact word

/-- A child element is the nearest of its name. -/
inductive ElementEntry.WellFormed (p : Place) : ElementEntry → Prop where
  | mk {q : Place} {e : ElementDef} {name : String} {o : Occurrence} (kept : Text.Kept name)
      (word : o.HasWord) (found : p.element? name = some (q, e)) :
      WellFormed p ⟨q.path, name, o⟩

theorem ElementEntry.WellFormed.hasWord {p : Place} {x : ElementEntry} (h : x.WellFormed p) :
    x.occurrence.HasWord := by
  cases h with
  | mk _ word _ => exact word

/-- Unordered content with different names of attributes and of elements. -/
inductive Content.WellFormed (p : Place) : Content → Prop where
  | unordered {attributes : List AttributeEntry} {elements : List ElementEntry}
      (attributes_nodup : (attributes.map (·.name)).Nodup)
      (elements_nodup : (elements.map (·.name)).Nodup)
      (attributes_wellFormed : ∀ a ∈ attributes, a.WellFormed p)
      (elements_wellFormed : ∀ e ∈ elements, e.WellFormed p) :
      WellFormed p (.unordered attributes elements)

/-- The place after its scope has got further elements. -/
def Place.addElements (p : Place) (es : List ElementDef) : Place :=
  p.withScope { p.scope with elements := p.scope.elements ++ es }

/-- The place of a scope inside a new element, which is known by its name only. -/
def Place.inside (p : Place) (name : String) (s : Scope) : Place :=
  .within (p.addElements [{ name }]) name s

/-- The scope without its elements. -/
def Scope.leaves (s : Scope) : Scope := { s with elements := [] }

/-- The elements can be made one after the other in the scope at the place. -/
inductive Place.ElementsWellFormed : Place → List ElementDef → Prop where
  | nil {p : Place} : ElementsWellFormed p []
  | cons {p : Place} {e : ElementDef} {es : List ElementDef} {c : Content}
      (kept : Text.Kept e.name) (new : e.name ∉ p.scope.names .element)
      (leaves : (p.inside e.name e.scope.leaves).LeavesWellFormed)
      (elements : ElementsWellFormed (p.inside e.name e.scope.leaves) e.elements)
      (content_eq : e.content = some c) (content : c.WellFormed (p.inside e.name e.scope))
      (rest : ElementsWellFormed (p.addElements [e]) es) : ElementsWellFormed p (e :: es)

/-- The schema can be made, and its root is one of the outermost elements. -/
structure Schema.WellFormed (s : Schema) : Prop where
  leaves : (Place.top s.definitions.leaves).LeavesWellFormed
  elements : (Place.top s.definitions.leaves).ElementsWellFormed s.definitions.elements
  root : ∃ name, s.root = some name ∧ name ∈ s.definitions.names .element

end SmlSchema
