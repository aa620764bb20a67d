import Mathlib.Data.List.Forall2
import SmlSchema.Proofs.Code.Declared
import SmlSchema.Proofs.Names
import SmlSchema.Proofs.Schema.References

/-! # The fields of generated types

Once the definitions that a field refers to have names, the field is made, unless its own name
cannot be made or its type is a struct without values.
-/

namespace SmlSchema

def ValueType.labels : ValueType → List String
  | .enum _ labels => labels
  | .reserved _ _ => []

/-! ## Obstacles -/

namespace Schema

/-- A label, the name of a struct's value or the name of an entry that occurs at most once is
empty. -/
def HasEmptyName (s : Schema) : Prop :=
  (∃ v ∈ s.allValueTypes, "" ∈ v.2.labels) ∨
    (∃ d ∈ s.allStructs, ∃ v ∈ d.2.values, v.name = "") ∨
    ∃ e ∈ s.allElements,
      (∃ a ∈ e.2.attributeEntries, a.occurrence.isRepeated = false ∧ a.name = "") ∨
        ∃ x ∈ e.2.elementEntries, x.occurrence.isRepeated = false ∧ x.name = ""

/-- There are more definitions, labels, values of a struct or entries of an element than there are
names made from one base. -/
def IsCrowded (s : Schema) : Prop :=
  99 < s.allValueTypes.length + s.allStructs.length + s.allElements.length ∨
    (∃ v ∈ s.allValueTypes, 99 < v.2.labels.length) ∨
    (∃ d ∈ s.allStructs, 99 < d.2.values.length) ∨
    ∃ e ∈ s.allElements, 99 < e.2.attributeEntries.length + e.2.elementEntries.length

/-- An attribute of an element has the struct of the name as its type, which has no values. -/
def ReadsEmptyStruct (s : Schema) (name : String) : Prop :=
  ∃ e ∈ s.allElements, ∃ a ∈ e.2.attributeEntries, ∃ d ∈ s.allStructs,
    (a.type? s).map (·.base) = some (.struct d.1 d.2.name) ∧ d.2.values = [] ∧ d.2.name = name

instance (s : Schema) : Decidable s.HasEmptyName :=
  inferInstanceAs (Decidable (_ ∨ _ ∨ _))

instance (s : Schema) : Decidable s.IsCrowded :=
  inferInstanceAs (Decidable (_ ∨ _ ∨ _ ∨ _))

/-- What can keep the generator from making the module of a loaded schema. -/
inductive Obstacle (s : Schema) : Error → Prop where
  | emptyName (h : s.HasEmptyName) : Obstacle s (.name .empty)
  | exhausted (name : String) (h : s.IsCrowded) : Obstacle s (.name (.exhausted name))
  | emptyStruct (name : String) (h : s.ReadsEmptyStruct name) :
      Obstacle s (.unsupported (.emptyStruct name))

theorem length_entities (s : Schema) :
    s.entities.length = s.allValueTypes.length + s.allStructs.length + s.allElements.length := by
  rw [entities, List.length_append, List.length_append, List.length_map, List.length_map,
    List.length_map]

/-- A name that cannot be given is an obstacle of the schema. -/
theorem Obstacle.ofBlocks {s : Schema} {f : NameFlaw} {bases : List String} {count : Nat}
    (h : f.Blocks bases count) (hempty : "" ∈ bases → s.HasEmptyName)
    (hcount : 99 < count → s.IsCrowded) : s.Obstacle (.name f) := by
  cases h with
  | empty h => exact .emptyName (hempty h)
  | exhausted name h => exact .exhausted name (hcount h)

end Schema

namespace Code

/-! ## Names of definitions -/

/-- What later types know of the type that was made for a definition. -/
inductive Fits (s : Schema) : Entity → Made → Prop where
  | enumeration (scope : Path) (name first : String) :
      Fits s (.valueType scope name) (.enumeration first)
  | struct {scope : Path} {d : Struct} (h : (scope, d) ∈ s.allStructs) :
      Fits s (.struct scope d.name) (.struct d)
  | element (scope : Path) (name : String) : Fits s (.element scope name) .element

theorem Fits.of_valueType {s : Schema} {scope : Path} {name : String} {m : Made}
    (h : Fits s (.valueType scope name) m) : ∃ first, m = .enumeration first := by
  cases h with
  | enumeration _ _ first => exact ⟨first, rfl⟩

/-- What is made for a struct is kept as that struct. -/
theorem Fits.of_struct {s : Schema} {scope : Path} {name : String} {m : Made}
    (h : Fits s (.struct scope name) m) :
    ∃ d, m = .struct d ∧ (scope, d) ∈ s.allStructs ∧ d.name = name := by
  generalize hentity : Entity.struct scope name = e at h
  cases h with
  | enumeration => cases hentity
  | struct hd =>
      cases hentity
      exact ⟨_, rfl, hd, rfl⟩
  | element => cases hentity

/-- The name was made for a type. -/
inductive IsTypeName (name : String) : Prop where
  | intro (base : String) (h : name ∈ Names.candidates (identifier true base))

/-- The definitions that are done have names of their own. -/
structure Register (s : Schema) (done : List Entity) (names : TypeNames) : Prop where
  entities : names.bindings.map (·.entity) = done
  used : names.used = names.bindings.map (·.name)
  nodup : names.used.Nodup
  fits : ∀ b ∈ names.bindings, Fits s b.entity b.construct
  normalize : names.normalize = identifier true
  typeNames : ∀ name ∈ names.used, IsTypeName name

namespace Register

variable {s : Schema} {done : List Entity} {names : TypeNames} {e : Entity}

theorem start (s : Schema) : Register s [] .start :=
  ⟨rfl, rfl, .nil, nofun, by rw [TypeNames.start], List.forall_mem_nil _⟩

/-- As many names are in use as entities are done. -/
theorem length_used (h : Register s done names) : names.used.length = done.length := by
  rw [h.used, ← h.entities, List.length_map, List.length_map]

/-- A definition that is done is found. -/
theorem find (h : Register s done names) (he : e ∈ done) :
    ∃ b, names.binding? e = some b ∧ Fits s e b.construct := by
  rw [← h.entities] at he
  obtain ⟨b, hb⟩ := Names.exists_binding? he
  obtain ⟨hmem, rfl⟩ := Names.mem_of_binding? hb
  exact ⟨b, hb, h.fits b hmem⟩

/-- Every entity that is done has a name. -/
theorem nameOf (h : Register s done names) (he : e ∈ done) : ∃ name, names.nameOf e = .ok name := by
  obtain ⟨b, hb, -⟩ := h.find he
  exact ⟨b.name, Names.nameOf_eq_ok.mpr ⟨b, hb, rfl⟩⟩

/-- A further definition gets a name of its own. -/
theorem add (h : Register s done names) (he : e ∉ done) {name : String}
    (hname : name ∉ names.used ∧ IsTypeName name) {m : Made} (hm : Fits s e m) :
    names.add e name m = .ok (names.extend [⟨e, name, m⟩]) ∧
      Register s (done ++ [e]) (names.extend [⟨e, name, m⟩]) := by
  obtain ⟨hfree, htype⟩ := hname
  refine ⟨Names.add_eq_ok hfree (by rwa [h.entities]) m, ?_, ?_, ?_, ?_, h.normalize, ?_⟩
  · rw [Names.extend, List.map_append, h.entities]
    rfl
  · rw [Names.extend, List.map_append, h.used]
  · rw [h.used] at hfree
    have hnodup := h.nodup
    rw [h.used] at hnodup
    rw [Names.extend, h.used, ← List.map_append]
    exact nodup_concat.mpr ⟨hnodup, hfree⟩
  · intro b hb
    rcases List.mem_append.mp hb with hb | hb
    · exact h.fits b hb
    · rw [List.mem_singleton.mp hb]
      exact hm
  · intro other hother
    rcases List.mem_append.mp hother with hother | hother
    · exact h.typeNames other hother
    · rw [List.mem_singleton.mp hother]
      exact htype

/-- There is a name for a further definition as long as the schema is not crowded. -/
theorem generate (h : Register s done names) (hcount : done.length < s.entities.length)
    {base : String} (hbase : base ≠ "") :
    Ends s.Obstacle (fun name => name ∉ names.used ∧ IsTypeName name)
      (liftM (names.generate base) : Except Error String) := by
  have htype : ∀ name, names.generate base = .ok name → IsTypeName name := fun name hname =>
    ⟨base, h.normalize ▸ Names.mem_candidates_of_generate hname⟩
  refine ((names.generate_ends base).mono (fun _ hf => hf) fun name hname hfree =>
    ⟨hfree, htype name hname⟩).mapError fun f hf => .ofBlocks hf ?_ ?_
  · intro hmem
    exact absurd (List.mem_singleton.mp hmem).symm hbase
  · intro hlarge
    rw [h.length_used] at hlarge
    rw [s.length_entities] at hcount
    exact .inl (by omega)

end Register

/-! ## Types of values -/

section

variable {s : Schema} {done : List Entity} {names : TypeNames}

/-- An enumeration that is done has a default. -/
theorem enumDefault_eq_ok (h : Register s done names) {scope : Path} {name : String}
    (he : Entity.valueType scope name ∈ done) : ∃ d, enumDefault names scope name = .ok d := by
  obtain ⟨b, hb, hfits⟩ := h.find he
  obtain ⟨first, hmade⟩ := hfits.of_valueType
  refine ⟨.member b.name first, ?_⟩
  simp only [enumDefault, bind_eq_ok, lift_name_eq_ok]
  exact ⟨b.name, Names.nameOf_eq_ok.mpr ⟨b, hb, rfl⟩, .enumeration first,
    Names.constructOf_eq_ok.mpr ⟨b, hb, hmade⟩, rfl⟩

/-- The type and the default of a value are found once all value types have names. -/
theorem valueBase_eq_ok (h : Register s done names)
    (hdone : s.allValueTypes.map .ofValueType ⊆ done) {b : ValueBase} (hb : b.DefinedIn s) :
    (∃ t, baseType names (.value b) = .ok t) ∧ ∃ d, baseDefault names (.value b) = .ok d := by
  cases b with
  | predefined p => exact ⟨⟨_, rfl⟩, ⟨_, rfl⟩⟩
  | valueType scope name =>
      obtain ⟨v, hv, rfl⟩ := hb
      have he : Entity.valueType scope v.name ∈ done := hdone (List.mem_map.mpr ⟨_, hv, rfl⟩)
      obtain ⟨typeName, hname⟩ := h.nameOf he
      refine ⟨⟨.named typeName, ?_⟩, enumDefault_eq_ok h he⟩
      simp only [baseType, bind_eq_ok, lift_name_eq_ok]
      exact ⟨typeName, hname, rfl⟩

/-- If the value types are done, every value of a struct can be loaded. -/
theorem loadStructValue_eq_ok (h : Register s done names)
    (hdone : s.allValueTypes.map .ofValueType ⊆ done) {v : StructValue} (hv : v.base.DefinedIn s)
    (position : Nat) : ∃ load, loadStructValue names position v = .ok load := by
  obtain ⟨name, optional, base, nullable⟩ := v
  cases base with
  | predefined p => exact ⟨_, rfl⟩
  | valueType scope name =>
      obtain ⟨v, hv, rfl⟩ := hv
      obtain ⟨typeName, hname⟩ := h.nameOf (hdone (List.mem_map.mpr ⟨_, hv, rfl⟩))
      simp only [loadStructValue, bind_eq_ok, lift_name_eq_ok]
      exact ⟨_, typeName, hname, rfl⟩

end

/-! ## Fields -/

/-- No name could be made for a field, or something else went wrong. -/
inductive Refused (bases : List String) (count : Nat) (E : Error → Prop) : Error → Prop where
  | name {f : NameFlaw} (h : f.Blocks bases count) : Refused bases count E (.name f)
  | other {e : Error} (h : E e) : Refused bases count E e

/-- What is refused stays refused among more names. -/
theorem Refused.mono {bases more : List String} {count larger : Nat} {E : Error → Prop} {e : Error}
    (h : Refused bases count E e) (hbases : bases ⊆ more) (hcount : count ≤ larger) :
    Refused more larger E e := by
  cases h with
  | name h => exact .name (h.mono hbases hcount)
  | other h => exact .other h

/-- What is refused is an obstacle of the schema. -/
theorem Refused.obstacle {s : Schema} {bases : List String} {count : Nat} {E : Error → Prop}
    {e : Error} (h : Refused bases count E e) (hempty : "" ∈ bases → s.HasEmptyName)
    (hcount : 99 < count → s.IsCrowded) (hother : ∀ e, E e → s.Obstacle e) : s.Obstacle e := by
  cases h with
  | name h => exact .ofBlocks h hempty hcount
  | other h => exact hother e h

/-- The field has a name that was free. -/
def TakesName (fields : MemberNames) (r : MemberNames × FieldCode) : Prop :=
  r.2.field.name ∉ fields.used ∧ r.1.used = fields.used ++ [r.2.field.name]

/-- Fields that are made one after the other have different names. -/
theorem gather_ends {make : MemberNames → α → Except Error (MemberNames × FieldCode)}
    {base : α → String} {E : Error → Prop} {as : List α}
    (hmake : ∀ a ∈ as, ∀ fields : MemberNames,
      Ends (Refused [base a] (fields.used.length + 1) E) (TakesName fields) (make fields a))
    (fields : MemberNames) :
    Ends (Refused (as.map base) (fields.used.length + as.length) E)
      (fun r => r.1.used = fields.used ++ r.2.map (·.field.name) ∧
        (fields.used.Nodup → r.1.used.Nodup))
      (gather make fields as) := by
  induction as generalizing fields with
  | nil => exact ⟨(List.append_nil _).symm, id⟩
  | cons a as ih =>
      refine ((hmake a List.mem_cons_self fields).mono (fun e he => ?_) fun _ _ h => h).bind ?_
      · refine he.mono (by simp) ?_
        rw [List.length_cons]
        omega
      · rintro ⟨next, c⟩ - ⟨hfree, hused⟩
        dsimp only at hfree hused
        have hrest := ih (fun b hb => hmake b (List.mem_cons_of_mem _ hb)) next
        refine (hrest.mono (fun e he => ?_) fun _ _ h => h).bind ?_
        · refine he.mono (List.subset_cons_self _ _) ?_
          rw [hused, List.length_append, List.length_singleton, List.length_cons]
          omega
        · rintro ⟨last, cs⟩ - ⟨hlast, hnodup⟩
          refine ⟨?_, fun hfields => hnodup ?_⟩
          · rw [hlast, hused, List.append_assoc]
            rfl
          · rw [hused]
            refine List.nodup_append.mpr ⟨hfields, List.nodup_singleton _, ?_⟩
            rintro x hx y hy rfl
            exact hfree (List.mem_singleton.mp hy ▸ hx)

/-- The items that were gathered were made one by one. -/
theorem gather_eq_ok {make : MemberNames → α → Except Error (MemberNames × FieldCode)}
    {as : List α} {fields last : MemberNames} {cs : List FieldCode}
    (h : gather make fields as = .ok (last, cs)) :
    List.Forall₂ (fun a c => ∃ before after, make before a = .ok (after, c)) as cs := by
  induction as generalizing fields cs with
  | nil =>
      cases h
      exact .nil
  | cons a as ih =>
      obtain ⟨⟨next, c⟩, hc, h⟩ := bind_eq_ok.mp h
      obtain ⟨⟨end', ds⟩, hds, h⟩ := bind_eq_ok.mp h
      cases h
      exact .cons ⟨fields, next, hc⟩ (ih hds)

/-- A name is reserved that was not in use, unless the name is refused. -/
theorem reserve_ends (E : Error → Prop) (fields : MemberNames) (base : String) :
    Ends (Refused [base] (fields.used.length + 1) E)
      (fun r => r.1 ∉ fields.used ∧ r.2.used = fields.used ++ [r.1])
      (liftM (fields.reserve base) : Except Error (String × MemberNames)) := by
  refine ((Names.reserve_ends fields base).mono (fun _ h => h) fun r _ h => ?_).mapError fun f hf =>
    .name hf
  exact ⟨h.1, congrArg Names.used h.2⟩

/-- The field of a struct's value is made, unless its name is refused. -/
theorem structField_ends {s : Schema} {done : List Entity} {names : TypeNames}
    (h : Register s done names) (hdone : s.allValueTypes.map .ofValueType ⊆ done)
    {v : StructValue × Nat} (hv : v.1.base.DefinedIn s) (fields : MemberNames) :
    Ends (Refused [v.1.name] (fields.used.length + 1) fun _ => False) (TakesName fields)
      (structField names fields v) := by
  obtain ⟨v, position⟩ := v
  obtain ⟨⟨t, ht⟩, d, hd⟩ := valueBase_eq_ok h hdone hv
  obtain ⟨load, hload⟩ := loadStructValue_eq_ok h hdone hv position
  refine (reserve_ends _ fields v.name).bind ?_
  rintro ⟨name, next⟩ - ⟨hfree, hused⟩
  simp only [ht, hd, hload, ok_bind]
  exact ⟨hfree, hused⟩

section

variable {s : Schema} {done : List Entity} {names : TypeNames}

/-- If value types and structs are done, a base has a type, a default and a reader. -/
theorem base_eq_ok (h : Register s done names) (hvalues : s.allValueTypes.map .ofValueType ⊆ done)
    (hstructs : s.allStructs.map .ofStruct ⊆ done) {b : Base} (hb : b.DefinedIn s) :
    (∃ t, baseType names b = .ok t) ∧ (∃ d, baseDefault names b = .ok d) ∧
      ∃ read, itemReader names b = .ok read := by
  cases b with
  | value b =>
      obtain ⟨ht, hd⟩ := valueBase_eq_ok h hvalues hb
      refine ⟨ht, hd, ?_⟩
      cases b with
      | predefined p => exact ⟨_, rfl⟩
      | valueType scope name =>
          obtain ⟨v, hv, rfl⟩ := hb
          obtain ⟨typeName, hname⟩ := h.nameOf (hvalues (List.mem_map.mpr ⟨_, hv, rfl⟩))
          simp only [itemReader, bind_eq_ok, lift_name_eq_ok]
          exact ⟨_, typeName, hname, rfl⟩
  | struct scope name =>
      obtain ⟨d, hd, rfl⟩ := hb
      obtain ⟨typeName, hname⟩ := h.nameOf (hstructs (List.mem_map.mpr ⟨_, hd, rfl⟩))
      simp only [baseType, baseDefault, itemReader, bind_eq_ok, lift_name_eq_ok]
      exact ⟨⟨_, typeName, hname, rfl⟩, ⟨_, typeName, hname, rfl⟩, ⟨_, typeName, hname, rfl⟩⟩

/-- If value types and structs are done, a data type has a type and a default. -/
theorem dataType_eq_ok (h : Register s done names)
    (hvalues : s.allValueTypes.map .ofValueType ⊆ done)
    (hstructs : s.allStructs.map .ofStruct ⊆ done) {t : DataType} (ht : t.base.DefinedIn s) :
    (∃ d, dataType names t = .ok d) ∧ ∃ d, dataDefault names t = .ok d := by
  obtain ⟨⟨b, hb⟩, ⟨d, hd⟩, -⟩ := base_eq_ok h hvalues hstructs ht
  obtain ⟨base, nullable, array⟩ := t
  refine ⟨?_, ?_⟩
  · cases array with
    | none => exact ⟨_, bind_eq_ok.mpr ⟨b, hb, rfl⟩⟩
    | some a => exact ⟨_, bind_eq_ok.mpr ⟨b, hb, rfl⟩⟩
  · cases array with
    | some a => exact ⟨_, rfl⟩
    | none =>
        cases nullable with
        | true => exact ⟨_, rfl⟩
        | false => exact ⟨d, hd⟩

/-- The base is a struct without values. -/
inductive Unreadable (s : Schema) (b : Base) : Error → Prop where
  | emptyStruct {scope : Path} {d : Struct} (base : b = .struct scope d.name)
      (mem : (scope, d) ∈ s.allStructs) (values : d.values = []) :
      Unreadable s b (.unsupported (.emptyStruct d.name))

/-- A base has an arity, unless the reason is one that the schema shows. -/
theorem arity_ends (h : Register s done names) (hstructs : s.allStructs.map .ofStruct ⊆ done)
    {b : Base} (hb : b.DefinedIn s) :
    Ends (Unreadable s b) (fun _ => True) (arity names b) := by
  cases b with
  | value b => exact trivial
  | struct scope name =>
      obtain ⟨d, hd, rfl⟩ := hb
      have he : Entity.struct scope d.name ∈ done := hstructs (List.mem_map.mpr ⟨_, hd, rfl⟩)
      obtain ⟨b, hb, hfits⟩ := h.find he
      obtain ⟨c, hmade, hc, hname⟩ := hfits.of_struct
      have hconstruct := Names.constructOf_eq_ok.mpr ⟨b, hb, hmade⟩
      rw [arity, lift_name_eq_ok.mpr hconstruct, ok_bind, ← hname]
      dsimp only
      split
      · rename_i hempty
        exact .emptyStruct rfl hc (List.isEmpty_iff.mp hempty)
      · exact trivial

/-- An attribute's value can be loaded, unless the reason is one that the schema shows. -/
theorem loadValue_ends (h : Register s done names)
    (hvalues : s.allValueTypes.map .ofValueType ⊆ done)
    (hstructs : s.allStructs.map .ofStruct ⊆ done) {t : DataType} (ht : t.base.DefinedIn s) :
    Ends (Unreadable s t.base) (fun _ => True) (loadValue names t) := by
  obtain ⟨-, -, read, hread⟩ := base_eq_ok h hvalues hstructs ht
  refine (arity_ends h hstructs ht).bind ?_
  rintro ⟨least, greatest⟩ - -
  simp only [hread, ok_bind]
  cases t.array with
  | none => exact trivial
  | some a => exact trivial

/-- An occurrence that has a word passes the check. -/
theorem checkOccurrence_eq_ok {o : Occurrence} (h : o.HasWord) (kind : NodeKind) (name : String) :
    checkOccurrence o kind name = .ok () := by
  have hall : ∀ o ∈ Occurrence.words.map (·.2),
      (o.isRequired || o.isOptional || o.isRepeated) = true := by decide
  rw [checkOccurrence, if_pos (hall o h)]

/-- Only an occurrence that has a word passes the check. -/
theorem hasWord_of_checkOccurrence {o : Occurrence} {kind : NodeKind} {name : String} {u : Unit}
    (h : checkOccurrence o kind name = .ok u) : o.HasWord := by
  unfold checkOccurrence at h
  split at h
  · rename_i hword
    simp only [Occurrence.isRequired, Occurrence.isOptional, Occurrence.isRepeated,
      Occurrence.isRepeatedPlus, Occurrence.isRepeatedStar, Bool.or_eq_true, beq_iff_eq,
      or_assoc] at hword
    exact Occurrence.hasWord_iff.mpr hword
  · cases h

/-- The field of an attribute is made, unless its name is refused or its base cannot be read. -/
theorem attributeField_ends (h : Register s done names)
    (hvalues : s.allValueTypes.map .ofValueType ⊆ done)
    (hstructs : s.allStructs.map .ofStruct ⊆ done) {a : AttributeEntry} {t : DataType}
    (hword : a.occurrence.HasWord) (ht : a.type? s = some t) (hbase : t.base.DefinedIn s)
    (fields : MemberNames) :
    Ends (Refused [fieldBase a.occurrence a.name] (fields.used.length + 1) (Unreadable s t.base))
      (TakesName fields) (attributeField s names fields a) := by
  obtain ⟨d, hd, htype⟩ := AttributeEntry.type?_eq_some.mp ht
  have hget : d.getType = .ok t := by rw [AttributeDef.getType, htype]
  obtain ⟨⟨type, hdesc⟩, default, hdefault⟩ := dataType_eq_ok h hvalues hstructs hbase
  simp only [attributeField, checkOccurrence_eq_ok hword, hd, hget, hdesc, hdefault, ok_bind]
  refine (reserve_ends _ fields _).bind ?_
  rintro ⟨name, next⟩ - ⟨hfree, hused⟩
  refine ((loadValue_ends h hvalues hstructs hbase).mono (fun _ he => .other he)
    fun _ _ h => h).bind fun load _ _ => ?_
  exact ⟨hfree, hused⟩

/-- The field of a child element is made, unless its name is refused. -/
theorem elementField_ends (h : Register s done names) {x : ElementEntry}
    (hword : x.occurrence.HasWord) (hx : .element x.scope x.name ∈ done) (fields : MemberNames) :
    Ends (Refused [fieldBase x.occurrence x.name] (fields.used.length + 1) fun _ => False)
      (TakesName fields) (elementField names fields x) := by
  obtain ⟨child, hchild⟩ := h.nameOf hx
  simp only [elementField, checkOccurrence_eq_ok hword, lift_name_eq_ok.mpr hchild, ok_bind]
  refine (reserve_ends _ fields _).bind ?_
  rintro ⟨name, next⟩ - ⟨hfree, hused⟩
  exact ⟨hfree, hused⟩

theorem ne_empty_of_append {name suffix : String} (h : suffix ≠ "") : name ++ suffix ≠ "" := by
  intro heq
  exact h (String.append_eq_empty_iff.mp heq).2

/-- A field for something that occurs at most once has its name as base. -/
theorem fieldBase_eq_empty {o : Occurrence} {name : String} (h : fieldBase o name = "") :
    o.isRepeated = false ∧ name = "" := by
  unfold fieldBase at h
  split at h
  · exact absurd h (ne_empty_of_append (by decide))
  · rename_i hrepeated
    exact ⟨Bool.eq_false_iff.mpr hrepeated, h⟩

/-! ## What fields are made of -/

variable {fields next : MemberNames} {c : FieldCode}

/-- The field of a struct's value has the name that was reserved for the value. -/
theorem structField_reserve {v : StructValue × Nat}
    (h : structField names fields v = .ok (next, c)) :
    fields.reserve v.1.name = .ok (c.field.name, next) := by
  simp only [structField, bind_eq_ok, lift_name_eq_ok] at h
  obtain ⟨⟨name, after⟩, hname, type, -, default, -, load, -, hc⟩ := h
  cases hc
  exact hname

/-- The field of an attribute has the name that was reserved for the entry. -/
theorem attributeField_reserve {a : AttributeEntry}
    (h : attributeField s names fields a = .ok (next, c)) :
    fields.reserve (fieldBase a.occurrence a.name) = .ok (c.field.name, next) := by
  simp only [attributeField, bind_eq_ok, lift_name_eq_ok] at h
  obtain ⟨_, -, d, -, t, -, type, -, default, -, ⟨name, after⟩, hname, load, -, hc⟩ := h
  cases hc
  exact hname

/-- The field of a child element has the name that was reserved for the entry. -/
theorem elementField_reserve {x : ElementEntry}
    (h : elementField names fields x = .ok (next, c)) :
    fields.reserve (fieldBase x.occurrence x.name) = .ok (c.field.name, next) := by
  simp only [elementField, bind_eq_ok, lift_name_eq_ok] at h
  obtain ⟨_, -, child, -, ⟨name, after⟩, hname, hc⟩ := h
  cases hc
  exact hname

/-- All parts of the field of a struct's value. -/
theorem structField_eq_ok {v : StructValue × Nat} (h : structField names fields v = .ok (next, c)) :
    ∃ name type default load, baseType names (.value v.1.base) = .ok type ∧
      baseDefault names (.value v.1.base) = .ok default ∧
      loadStructValue names v.2 v.1 = .ok load ∧
      c.field = ⟨name, nullableIf (v.1.nullable || v.1.optional) type,
        if v.1.nullable || v.1.optional then .none else default⟩ ∧
      c.statements = structExtraction v.1 v.2 name load := by
  simp only [structField, bind_eq_ok, lift_name_eq_ok] at h
  obtain ⟨⟨name, after⟩, -, type, htype, default, hdefault, load, hload, hc⟩ := h
  cases hc
  exact ⟨name, type, default, load, htype, hdefault, hload, rfl, rfl⟩

/-- All parts of the field of an attribute. -/
theorem attributeField_eq_ok {a : AttributeEntry}
    (h : attributeField s names fields a = .ok (next, c)) :
    ∃ t name type default load, a.occurrence.HasWord ∧ a.type? s = some t ∧
      dataType names t = .ok type ∧ dataDefault names t = .ok default ∧
      loadValue names t = .ok load ∧
      c.field = ⟨name, fieldType a.occurrence type, fieldDefault a.occurrence default⟩ ∧
      c.statements = extraction a.occurrence .attribute "attribute" a.name name load := by
  simp only [attributeField, bind_eq_ok, lift_name_eq_ok] at h
  obtain ⟨_, hword, d, hd, t, ht, type, htype, default, hdefault, ⟨name, after⟩, -, load, hload,
    hc⟩ := h
  cases hc
  refine ⟨t, name, type, default, load, hasWord_of_checkOccurrence hword,
    AttributeEntry.type?_eq_some.mpr ⟨d, hd, ?_⟩, htype, hdefault, hload, rfl, rfl⟩
  cases hd : d.type with
  | none =>
      rw [AttributeDef.getType, hd] at ht
      cases ht
  | some u =>
      rw [AttributeDef.getType, hd] at ht
      cases ht
      rfl

/-- All parts of the field of a child element. -/
theorem elementField_eq_ok {x : ElementEntry} (h : elementField names fields x = .ok (next, c)) :
    ∃ child name, x.occurrence.HasWord ∧ names.nameOf (.element x.scope x.name) = .ok child ∧
      c.field = ⟨name, fieldType x.occurrence (.named child),
        fieldDefault x.occurrence (.newInstance child)⟩ ∧
      c.statements = extraction x.occurrence .element "child" x.name name
        (invoke (.typeRef child) "load" [.var "child"]) := by
  simp only [elementField, bind_eq_ok, lift_name_eq_ok] at h
  obtain ⟨_, hword, child, hchild, ⟨name, after⟩, -, hc⟩ := h
  cases hc
  exact ⟨child, name, hasWord_of_checkOccurrence hword, hchild, rfl, rfl⟩

end

end Code

end SmlSchema
