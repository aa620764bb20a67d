import SmlSchema.Proofs.Code.Generation
import SmlSchema.Proofs.Code.Logic
import SmlSchema.Proofs.Document.Rows
import SmlSchema.Proofs.Schema.Conformance

/-! # Generated readers

The types that were made for the value types and structs of a schema read exactly the values that
conform to them, and so do the expressions that read attributes.
-/

namespace SmlSchema

namespace Code

/-! ## New records -/

/-- The default has a value, or it is a new record of a type that has fields. -/
def Default.Sound (types : List DeclaredType) : Default → Prop
  | .zero _ | .none | .emptyList => True
  | .newInstance type => ∃ t fields, findType types type = .ok t ∧ t.shape = .record fields
  | .member type name => ∃ v, memberNamed types type name = .ok v
  | .foreign _ => False

/-- The fields of the types have different names and defaults that can be made. -/
structure SoundTypes (types : List DeclaredType) : Prop where
  nodup : ∀ type t fields, findType types type = .ok t → t.shape = .record fields →
    (fields.map (·.name)).Nodup
  defaults : ∀ type t fields, findType types type = .ok t → t.shape = .record fields →
    ∀ f ∈ fields, f.default.Sound types

/-- Fields that have just got their defaults are new. -/
theorem allNew_of_forall₂ {R : Field → Value → Prop} {fields : List Field}
    {vs : List (String × Value)}
    (h : List.Forall₂ (fun f p => p.1 = f.name ∧ R f p.2) fields vs)
    (hR : ∀ f v, R f v → f.default = .emptyList → v = .list [])
    (hnodup : (fields.map (·.name)).Nodup) : Context.AllNew fields vs := by
  induction h with
  | nil => exact nofun
  | @cons f p fields vs hf _ ih =>
      obtain ⟨x, v⟩ := p
      obtain ⟨rfl, hv⟩ := hf
      rw [List.map_cons, List.nodup_cons] at hnodup
      intro g hg
      rcases List.mem_cons.mp hg with rfl | hg
      · exact ⟨v, List.lookup_cons_self, hR g v hv⟩
      · obtain ⟨w, hw, hlist⟩ := ih hnodup.2 g hg
        refine ⟨w, ?_, hlist⟩
        rwa [lookup_cons_ne]
        intro heq
        exact hnodup.1 (heq ▸ List.mem_map.mpr ⟨g, hg, rfl⟩)

section

variable {types : List DeclaredType} {type : String} {t : DeclaredType} {fields : List Field}

/-- A sound default does not make a run meaningless. -/
theorem Default.Sound.value_ne {d : Default} (h : d.Sound types)
    {new : String → Except Fault Value}
    (hnew : ∀ type t fields, findType types type = .ok t → t.shape = .record fields →
      new type ≠ .error .meaningless) : d.value types new ≠ .error .meaningless := by
  cases d with
  | zero => exact nofun
  | none => exact nofun
  | emptyList => exact nofun
  | newInstance type =>
      obtain ⟨t, fields, ht, hshape⟩ := h
      exact hnew type t fields ht hshape
  | member type name =>
      obtain ⟨v, hv⟩ := h
      rw [Default.value, hv]
      exact nofun
  | foreign => exact h.elim

/-- Only a record type has instances. -/
theorem exists_record_of_fresh {n : Nat} {v : Value} (h : fresh types n type = .ok v) :
    ∃ t fields, findType types type = .ok t ∧ t.shape = .record fields := by
  cases n with
  | zero => cases h
  | succ n =>
      obtain ⟨t, ht, h⟩ := bind_eq_ok.mp h
      cases hshape : t.shape with
      | record fields => exact ⟨t, fields, ht, hshape⟩
      | enumeration variants =>
          rw [hshape] at h
          cases h

/-- A default that has a value is sound. -/
theorem Default.sound_of_value {d : Default} {n : Nat}
    (h : ∃ v, d.value types (fresh types n) = .ok v) : d.Sound types := by
  obtain ⟨v, hv⟩ := h
  cases d with
  | zero => exact trivial
  | none => exact trivial
  | emptyList => exact trivial
  | newInstance type => exact exists_record_of_fresh hv
  | member type name => exact ⟨v, hv⟩
  | foreign => cases hv

/-- A record is made exactly if its defaults are. -/
theorem decides_fresh (ht : findType types type = .ok t) (hshape : t.shape = .record fields)
    (hnodup : (fields.map (·.name)).Nodup) {n : Nat}
    (hdefaults : ∀ f ∈ fields, f.default.value types (fresh types n) ≠ .error .meaningless) :
    Decides (∀ f ∈ fields, ∃ v, f.default.value types (fresh types n) = .ok v)
      (fun v => ∃ vs, v = .record type vs ∧ Context.AllNew fields vs)
      (fresh types (n + 1) type) := by
  have hfields : ∀ f ∈ fields, Decides (∃ v, f.default.value types (fresh types n) = .ok v)
      (fun p => p.1 = f.name ∧ f.default.value types (fresh types n) = .ok p.2)
      (do return (f.name, ← f.default.value types (fresh types n))) := fun f hf =>
    (Decides.self (hdefaults f hf)).bind_ok fun v _ hv => ⟨_, rfl, rfl, hv⟩
  rw [fresh, ht, ok_bind, hshape]
  refine (Decides.mapM hfields).bind_ok fun vs _ hvs => ⟨_, rfl, vs, rfl, ?_⟩
  refine allNew_of_forall₂ (R := fun f v => f.default.value types (fresh types n) = .ok v) hvs
    (fun f v hv hempty => ?_) hnodup
  rw [hempty] at hv
  cases hv
  rfl

/-- Making a record may go too deep, but it never goes wrong. -/
theorem SoundTypes.fresh_ne (h : SoundTypes types) (n : Nat) : ∀ type t fields,
    findType types type = .ok t → t.shape = .record fields →
      fresh types n type ≠ .error .meaningless := by
  induction n with
  | zero => exact fun _ _ _ _ _ => nofun
  | succ n ih =>
      intro type t fields ht hshape heq
      have hdecides := decides_fresh ht hshape (h.nodup type t fields ht hshape)
        fun f hf => (h.defaults type t fields ht hshape f hf).value_ne ih
      rw [heq] at hdecides
      exact hdecides.1 rfl

end

/-! ## The types of a module -/

/-- The types were made for the definitions of the schema, which have the names. -/
structure Complete (s : Schema) (names : TypeNames) (types : List DeclaredType) : Prop where
  wellFormed : s.WellFormed
  register : Register s s.entities names
  declares : List.Forall₂ (Declares s names) names.bindings types

theorem Declares.name {s : Schema} {names : TypeNames} {b : NameBinding Entity Made}
    {t : DeclaredType} (h : Declares s names b t) : t.name = b.name := by
  cases h with
  | enumeration => rfl
  | struct => rfl
  | element => rfl

/-- The declarations of a well-formed schema are complete. -/
theorem complete_of_declarations {s : Schema} {names : TypeNames} {types : List DeclaredType}
    (hs : s.WellFormed) (h : s.declarations.result = .ok (names, types)) :
    Complete s names types := by
  have hends := declarations_ends hs
  rw [h] at hends
  obtain ⟨hregister, bs, hnames, -, htypes⟩ := hends
  have hbindings : names.bindings = bs := congrArg Names.bindings hnames
  exact ⟨hs, hregister, hbindings ▸ htypes⟩

/-- What stands under a name in one list stands under it in the other. -/
theorem exists_find?_of_forall₂ {R : NameBinding Entity Made → DeclaredType → Prop}
    {bs : List (NameBinding Entity Made)} {ts : List DeclaredType} (h : List.Forall₂ R bs ts)
    (hname : ∀ b t, R b t → t.name = b.name) (hnodup : (bs.map (·.name)).Nodup)
    {b : NameBinding Entity Made} (hb : b ∈ bs) :
    ∃ t, ts.find? (·.name == b.name) = some t ∧ R b t := by
  induction h with
  | nil => cases hb
  | @cons c t bs ts hc _ ih =>
      rw [List.map_cons, List.nodup_cons] at hnodup
      rcases List.mem_cons.mp hb with rfl | hb
      · refine ⟨t, List.find?_cons_of_pos ?_, hc⟩
        exact beq_iff_eq.mpr (hname b t hc)
      · obtain ⟨u, hu, hR⟩ := ih hnodup.2 hb
        refine ⟨u, ?_, hR⟩
        rw [List.find?_cons_of_neg, hu]
        intro heq
        refine hnodup.1 (List.mem_map.mpr ⟨b, hb, ?_⟩)
        rw [← hname c t hc]
        exact (eq_of_beq heq).symm

namespace Complete

variable {s : Schema} {names : TypeNames} {types : List DeclaredType} {scope : Path}
  {name : String} {b : NameBinding Entity Made}

/-- The type that is made for an entity is found by its name. -/
theorem find (h : Complete s names types) {e : Entity} (hb : names.binding? e = some b) :
    ∃ t, findType types b.name = .ok t ∧ Declares s names b t ∧ b.entity = e := by
  obtain ⟨hmem, hentity⟩ := Names.mem_of_binding? hb
  have hnodup := h.register.nodup
  rw [h.register.used] at hnodup
  obtain ⟨t, ht, hdeclares⟩ :=
    exists_find?_of_forall₂ h.declares (fun _ _ => Declares.name) hnodup hmem
  exact ⟨t, found_eq_ok.mpr ht, hdeclares, hentity⟩

/-- The type that is made for a value type is an enumeration of its labels. -/
theorem enumeration (h : Complete s names types)
    (hb : names.binding? (.valueType scope name) = some b) :
    ∃ labels members, s.valueTypeAt? scope name = some (.enum name labels) ∧ labels ≠ [] ∧
      members.length = labels.length ∧ members.Nodup ∧
      b.construct = .enumeration (members.headD "") ∧
      findType types b.name = .ok (enumType b.name labels members) := by
  obtain ⟨t, ht, hdeclares, hentity⟩ := h.find hb
  cases hdeclares with
  | @enumeration _ _ typeName labels members mem length nodup =>
      cases hentity
      refine ⟨labels, members, h.wellFormed.valueTypeAt?_of_mem mem, ?_, length, nodup, rfl, ht⟩
      cases h.wellFormed.valueType mem with
      | enum ne_nil => exact ne_nil
  | struct => cases hentity
  | element => cases hentity

/-- The code of the fields of a struct was made with names that are kept. -/
theorem struct (h : Complete s names types) (hb : names.binding? (.struct scope name) = some b) :
    ∃ d cs, s.structAt? scope name = some d ∧ b.construct = .struct d ∧
      List.Forall₂ (fun v c => ∃ known : TypeNames, known.Keeps names ∧
        ∃ before after, structField known before v = .ok (after, c)) d.values.zipIdx cs ∧
      (cs.map (·.field.name)).Nodup ∧ findType types b.name = .ok (structType b.name cs) := by
  obtain ⟨t, ht, hdeclares, hentity⟩ := h.find hb
  cases hdeclares with
  | enumeration => cases hentity
  | @struct _ d typeName known fields cs mem keeps gather nodup =>
      cases hentity
      refine ⟨d, cs, h.wellFormed.structAt?_of_mem mem, rfl, ?_, nodup, ht⟩
      exact (gather_eq_ok gather).imp fun _ _ hmake => ⟨known, keeps, hmake⟩
  | element => cases hentity

/-- The type of an element was made for its definition. -/
theorem element (h : Complete s names types) (hb : names.binding? (.element scope name) = some b) :
    ∃ d isRoot cs ds, s.elementAt? scope name = some d ∧ d.name = name ∧
      List.Forall₂ (fun x c => ∃ known : TypeNames, known.Keeps names ∧
        ∃ before after, attributeField s known before x = .ok (after, c)) d.attributeEntries cs ∧
      List.Forall₂ (fun x c => ∃ known : TypeNames, known.Keeps names ∧
        ∃ before after, elementField known before x = .ok (after, c)) d.elementEntries ds ∧
      ((cs ++ ds).map (·.field.name)).Nodup ∧
      findType types b.name =
        .ok (recordType b.name name isRoot d.attributeEntries d.elementEntries (cs ++ ds)) := by
  obtain ⟨t, ht, hdeclares, hentity⟩ := h.find hb
  cases hdeclares with
  | enumeration => cases hentity
  | struct => cases hentity
  | @element _ d typeName known isRoot fields last cs ds mem keeps attributes elements nodup =>
      cases hentity
      refine ⟨d, isRoot, cs, ds, h.wellFormed.elementAt?_of_mem mem, rfl, ?_, ?_, nodup, ht⟩
      · exact (gather_eq_ok attributes).imp fun _ _ hmake => ⟨known, keeps, hmake⟩
      · exact (gather_eq_ok elements).imp fun _ _ hmake => ⟨known, keeps, hmake⟩

end Complete

/-! ## Defaults of fields -/

/-- A name that was known earlier still belongs to its entity. -/
theorem exists_binding?_of_keeps {names known : TypeNames} (h : known.Keeps names) {e : Entity}
    {typeName : String} (hname : known.nameOf e = .ok typeName) :
    ∃ b, names.binding? e = some b ∧ b.name = typeName := by
  obtain ⟨b, hb, hname⟩ := Names.nameOf_eq_ok.mp hname
  exact ⟨b, h.binding? hb, hname⟩

/-- The default of an enumeration is its first member. -/
theorem memberNamed_enumType {types : List DeclaredType} {typeName : String}
    {labels members : List String}
    (ht : findType types typeName = .ok (enumType typeName labels members))
    (hlength : members.length = labels.length) (hlabels : labels ≠ []) :
    memberNamed types typeName (members.headD "") = .ok (.member typeName 0) := by
  cases members with
  | nil => exact absurd (List.length_eq_zero_iff.mp hlength.symm) hlabels
  | cons m members =>
      cases labels with
      | nil => cases hlength
      | cons l labels =>
          simp only [memberNamed, ht, ok_bind, enumType, List.zipWith_cons_cons, List.headD_cons,
            List.findIdx?_cons, beq_self_eq_true, if_true, found, pure_eq_ok]

namespace Complete

variable {s : Schema} {names known : TypeNames} {types : List DeclaredType} {d : Default}

/-- The default of a value has a value. -/
theorem value_baseDefault (h : Complete s names types) (hkeeps : known.Keeps names) {b : ValueBase}
    (hd : baseDefault known (.value b) = .ok d) (new : String → Except Fault Value) :
    ∃ v, d.value types new = .ok v := by
  cases b with
  | predefined p =>
      cases hd
      exact ⟨_, rfl⟩
  | valueType scope name =>
      simp only [baseDefault, enumDefault, bind_eq_ok, lift_name_eq_ok] at hd
      obtain ⟨typeName, hname, made, hmade, hd⟩ := hd
      obtain ⟨b, hb, rfl⟩ := Names.nameOf_eq_ok.mp hname
      obtain ⟨c, hc, rfl⟩ := Names.constructOf_eq_ok.mp hmade
      obtain rfl : b = c := Option.some.inj (hb.symm.trans hc)
      obtain ⟨labels, members, -, hlabels, hlength, -, hconstruct, ht⟩ :=
        h.enumeration (hkeeps.binding? hb)
      rw [hconstruct] at hd
      cases hd
      exact ⟨_, memberNamed_enumType ht hlength hlabels⟩

/-- The default of a struct's field has a value. -/
theorem value_structField (h : Complete s names types) (hkeeps : known.Keeps names)
    {v : StructValue × Nat} {before after : MemberNames} {c : FieldCode}
    (hc : structField known before v = .ok (after, c)) (new : String → Except Fault Value) :
    ∃ w, c.field.default.value types new = .ok w := by
  obtain ⟨name, type, default, load, -, hdefault, -, hfield, -⟩ := structField_eq_ok hc
  rw [hfield]
  dsimp only
  split
  · exact ⟨_, rfl⟩
  · exact h.value_baseDefault hkeeps hdefault new

/-- A new record of a struct is always made. -/
theorem decides_new_struct (h : Complete s names types) (n : Nat) {typeName : String}
    {xs : List (StructValue × Nat)} {cs : List FieldCode}
    (hcs : List.Forall₂ (fun v c => ∃ known : TypeNames, known.Keeps names ∧
      ∃ before after, structField known before v = .ok (after, c)) xs cs)
    (hnodup : (cs.map (·.field.name)).Nodup)
    (ht : findType types typeName = .ok (structType typeName cs)) :
    Decides True (fun v => ∃ fields, v = .record typeName fields ∧
      Context.AllNew (cs.map (·.field)) fields) (fresh types (n + 1) typeName) := by
  have hvalues : ∀ f ∈ cs.map (·.field), ∃ v, f.default.value types (fresh types n) = .ok v := by
    refine List.forall_mem_map.mpr (forall_of_forall₂ hcs ?_)
    rintro v c ⟨known, hkeeps, before, after, hc⟩
    exact h.value_structField hkeeps hc _
  refine (decides_fresh ht rfl ?_ fun f hf => ?_).congr (iff_of_true hvalues trivial)
  · rwa [List.map_map]
  · obtain ⟨v, hv⟩ := hvalues f hf
    rw [hv]
    exact nofun

/-- The default of a data type has a value. -/
theorem value_dataDefault (h : Complete s names types) (hkeeps : known.Keeps names) {t : DataType}
    (hd : dataDefault known t = .ok d) (n : Nat) :
    ∃ v, d.value types (fresh types (n + 1)) = .ok v := by
  obtain ⟨base, nullable, array⟩ := t
  cases array with
  | some a =>
      cases hd
      split
      · exact ⟨_, rfl⟩
      · exact ⟨_, rfl⟩
  | none =>
      cases nullable with
      | true =>
          cases hd
          exact ⟨_, rfl⟩
      | false =>
          cases base with
          | value b => exact h.value_baseDefault hkeeps hd _
          | struct scope name =>
              simp only [dataDefault, Bool.false_eq_true, if_false, baseDefault, bind_eq_ok,
                lift_name_eq_ok] at hd
              obtain ⟨typeName, hname, hd⟩ := hd
              cases hd
              obtain ⟨b, hb, rfl⟩ := exists_binding?_of_keeps hkeeps hname
              obtain ⟨_, cs, -, -, hcs, hnodup, ht⟩ := h.struct hb
              obtain ⟨v, hv, -⟩ := (h.decides_new_struct n hcs hnodup ht).exists_ok trivial
              exact ⟨v, hv⟩

/-- A field starts with an empty list, with nothing or with the default of its type. -/
theorem fieldDefault_cases (o : Occurrence) (d : Default) :
    fieldDefault o d = .emptyList ∨ fieldDefault o d = .none ∨ fieldDefault o d = d := by
  unfold fieldDefault
  split
  · exact .inl rfl
  · split
    · exact .inr (.inl rfl)
    · exact .inr (.inr rfl)

/-- The default of an attribute's field has a value. -/
theorem value_attributeField (h : Complete s names types) (hkeeps : known.Keeps names)
    {x : AttributeEntry} {before after : MemberNames} {c : FieldCode}
    (hc : attributeField s known before x = .ok (after, c)) (n : Nat) :
    ∃ v, c.field.default.value types (fresh types (n + 1)) = .ok v := by
  obtain ⟨t, name, type, default, load, -, -, -, hdefault, -, hfield, -⟩ := attributeField_eq_ok hc
  rw [hfield]
  rcases fieldDefault_cases x.occurrence default with heq | heq | heq <;> rw [heq]
  · exact ⟨_, rfl⟩
  · exact ⟨_, rfl⟩
  · exact h.value_dataDefault hkeeps hdefault n

/-- The default of a child's field has a value if required children have instances. -/
theorem value_elementField (hkeeps : known.Keeps names) {x : ElementEntry}
    {before after : MemberNames} {c : FieldCode}
    (hc : elementField known before x = .ok (after, c)) (n : Nat)
    (hchild : x.occurrence = .required → ∀ b, names.binding? (.element x.scope x.name) = some b →
      ∃ v, fresh types n b.name = .ok v) :
    ∃ v, c.field.default.value types (fresh types n) = .ok v := by
  obtain ⟨typeName, name, hword, hname, hfield, -⟩ := elementField_eq_ok hc
  obtain ⟨b, hb, rfl⟩ := exists_binding?_of_keeps hkeeps hname
  rw [hfield]
  rcases Occurrence.hasWord_iff.mp hword with ho | ho | ho | ho <;> rw [ho]
  · exact hchild ho b hb
  · exact ⟨_, rfl⟩
  · exact ⟨_, rfl⟩
  · exact ⟨_, rfl⟩

/-- The default of a child's field is sound. -/
theorem sound_elementField (h : Complete s names types) (hkeeps : known.Keeps names)
    {x : ElementEntry} {before after : MemberNames} {c : FieldCode}
    (hc : elementField known before x = .ok (after, c)) : c.field.default.Sound types := by
  obtain ⟨child, name, -, hchild, hfield, -⟩ := elementField_eq_ok hc
  obtain ⟨b, hb, rfl⟩ := exists_binding?_of_keeps hkeeps hchild
  obtain ⟨_, _, _, _, -, -, -, -, -, ht⟩ := h.element hb
  have hsound : (Default.newInstance b.name).Sound types := ⟨_, _, ht, rfl⟩
  rw [hfield]
  rcases fieldDefault_cases x.occurrence (.newInstance b.name) with heq | heq | heq <;> rw [heq]
  · exact trivial
  · exact trivial
  · exact hsound

/-- The fields of all types have different names and defaults that can be made. -/
theorem soundTypes (h : Complete s names types) : SoundTypes types := by
  have hdeclares : ∀ t ∈ types, ∃ b, Declares s names b t :=
    forall_of_forall₂ h.declares fun b t ht => ⟨b, ht⟩
  have hfields : ∀ type t fields, findType types type = .ok t → t.shape = .record fields →
      (fields.map (·.name)).Nodup ∧ ∀ f ∈ fields, f.default.Sound types := by
    intro type t fields ht hshape
    obtain ⟨b, hb⟩ := hdeclares t (List.mem_of_find?_eq_some (found_eq_ok.mp ht))
    cases hb with
    | enumeration => cases hshape
    | struct _ keeps gather nodup =>
        cases hshape
        rw [List.map_map]
        refine ⟨nodup, List.forall_mem_map.mpr ?_⟩
        refine forall_of_forall₂ (gather_eq_ok gather) ?_
        rintro v c ⟨before, after, hc⟩
        exact Default.sound_of_value (n := 0) (h.value_structField keeps hc _)
    | element _ keeps attributes elements nodup =>
        cases hshape
        rw [List.map_map]
        refine ⟨nodup, List.forall_mem_map.mpr (List.forall_mem_append.mpr ⟨?_, ?_⟩)⟩
        · refine forall_of_forall₂ (gather_eq_ok attributes) ?_
          rintro x c ⟨before, after, hc⟩
          exact Default.sound_of_value (h.value_attributeField keeps hc 0)
        · refine forall_of_forall₂ (gather_eq_ok elements) ?_
          rintro x c ⟨before, after, hc⟩
          exact h.sound_elementField keeps hc
  exact ⟨fun type t fields ht hs => (hfields type t fields ht hs).1,
    fun type t fields ht hs => (hfields type t fields ht hs).2⟩

end Complete

end Code

/-! ## Values -/

namespace Attribute

variable {a : Attribute}

/-- A value of a predefined type is read from its text. -/
theorem scalar_eq_ok {p : Predefined} {index : Nat} {nullable : Bool} {r : Option Scalar} :
    scalar p.name a index nullable = .ok r ↔
      (a.values[index]? = some none ∧ nullable ∧ r = none) ∨
      ∃ text v, a.values[index]? = some (some text) ∧ p.read text = .ok v ∧ r = some v := by
  simp only [scalar, Predefined.ofName?_name, bind_eq_ok]
  constructor
  · rintro ⟨c, hc, hr⟩
    obtain ⟨hvalue, hnull⟩ := stringOrNull_eq_ok.mp hc
    cases c with
    | none =>
        cases hr
        exact .inl ⟨hvalue, hnull rfl, rfl⟩
    | some text =>
        dsimp only at hr
        split at hr
        · rename_i v hv
          cases hr
          exact .inr ⟨text, v, hvalue, hv, rfl⟩
        · cases hr
  · rintro (⟨hvalue, hnull, rfl⟩ | ⟨text, v, hvalue, hv, rfl⟩)
    · exact ⟨none, stringOrNull_eq_ok.mpr ⟨hvalue, fun _ => hnull⟩, rfl⟩
    · have hnull : some text = none → nullable := fun h => absurd h (Option.some_ne_none text)
      refine ⟨some text, stringOrNull_eq_ok.mpr ⟨hvalue, hnull⟩, ?_⟩
      simp only [hv, pure_eq_ok]

end Attribute

/-- The cell at the index is a value of the type. -/
def ValueBase.ReadsAt (s : Schema) (b : ValueBase) (nullable : Bool) (cells : List Line.Cell)
    (i : Nat) : Prop :=
  ∃ c, cells[i]? = some c ∧ b.Reads s nullable c

/-- A predefined type reads a position if the scalar at it can be read. -/
theorem ValueBase.readsAt_predefined {s : Schema} {p : Predefined} {nullable : Bool}
    {a : Attribute} {i : Nat} :
    (predefined p).ReadsAt s nullable a.values i ↔
      ∃ r, Attribute.scalar p.name a i nullable = .ok r := by
  simp only [Attribute.scalar_eq_ok]
  constructor
  · rintro ⟨c, hc, hreads⟩
    cases c with
    | none => exact ⟨none, .inl ⟨hc, hreads, rfl⟩⟩
    | some text =>
        obtain ⟨v, hv⟩ := hreads
        exact ⟨some v, .inr ⟨text, v, hc, hv, rfl⟩⟩
  · rintro ⟨r, ⟨hc, hnull, -⟩ | ⟨text, v, hc, hv, -⟩⟩
    · exact ⟨none, hc, hnull⟩
    · exact ⟨some text, hc, v, hv⟩

/-- An enumeration reads a position if the label at it is one of its labels. -/
theorem ValueBase.readsAt_valueType {s : Schema} {scope : Path} {name : String}
    {labels : List String} (h : s.valueTypeAt? scope name = some (.enum name labels))
    {nullable : Bool} {a : Attribute} {i : Nat} :
    (valueType scope name).ReadsAt s nullable a.values i ↔
      ∃ r, Attribute.label labels a i nullable = .ok r := by
  simp only [Attribute.label_eq_ok]
  constructor
  · rintro ⟨c, hc, hreads⟩
    cases c with
    | none => exact ⟨none, .inl ⟨hc, hreads, rfl⟩⟩
    | some text =>
        obtain ⟨_, heq, hmem⟩ := hreads
        rw [h] at heq
        cases heq
        obtain ⟨k, hk⟩ := Option.isSome_iff_exists.mp (List.isSome_idxOf?.mpr hmem)
        exact ⟨some k, .inr ⟨text, k, hc, hk, rfl⟩⟩
  · rintro ⟨r, ⟨hc, hnull, -⟩ | ⟨text, k, hc, hk, -⟩⟩
    · exact ⟨none, hc, hnull⟩
    · have hsome : (labels.idxOf? text).isSome := by rw [hk]; rfl
      exact ⟨some text, hc, labels, h, List.isSome_idxOf?.mp hsome⟩

/-- A value of a struct is read at a position as it is read from the cell there. -/
theorem StructValue.readsAt_iff {s : Schema} {v : StructValue} {cells : List Line.Cell} {i : Nat}
    (h : v.optional = true → i < cells.length) :
    v.base.ReadsAt s v.nullable cells i ↔ v.Reads s cells[i]? := by
  unfold ValueBase.ReadsAt
  cases hcell : cells[i]? with
  | some c =>
      constructor
      · rintro ⟨_, heq, hreads⟩
        cases heq
        exact hreads
      · exact fun hreads => ⟨c, rfl, hreads⟩
  | none =>
      constructor
      · rintro ⟨_, heq, -⟩
        cases heq
      · intro hoptional
        exact absurd (List.getElem?_eq_none_iff.mp hcell) (Nat.not_le_of_lt (h hoptional))

namespace Code

/-- What a reader knows when it starts. -/
def readerLocals (a : Attribute) (i : Nat) (nullable : Bool) : Locals :=
  [("attribute", .attribute a), ("index", .int i), ("nullable", .bool nullable)]

theorem bindAll_readerParameters (k : Context) (a : Attribute) (i : Nat) (nullable : Bool) :
    k.bindAll readerParameters [.attribute a, .int i, .bool nullable] =
      .ok (readerLocals a i nullable) := rfl

section

variable {s : Schema} {names : TypeNames} {types : List DeclaredType} (n : Nat) (a : Attribute)
  (i : Nat) (nullable : Bool)

/-- Reading a scalar decides whether its type reads the position. -/
theorem decides_scalar (p : Predefined) :
    Decides ((ValueBase.predefined p).ReadsAt s nullable a.values i) (fun _ => True)
      (readScalar p.name [.attribute a, .int i, .bool nullable]) := by
  refine Decides.congr ?_ ValueBase.readsAt_predefined.symm
  exact (Decides.lift _).bind_ok fun r _ _ => ⟨_, rfl, trivial⟩

/-- The member of an enumeration at a position. -/
theorem memberAt_enumType {typeName : String} {labels members : List String}
    (ht : findType types typeName = .ok (enumType typeName labels members))
    (hlength : members.length = labels.length) {k : Nat} (hk : k < labels.length) :
    memberAt types (.type typeName) (.int k) = .ok (.member typeName k) := by
  have hvariants : (k : Int) < (List.zipWith (fun m l => Variant.mk m (.string l)) members
      labels).length := by
    rw [List.length_zipWith, hlength, Nat.min_self]
    exact Int.ofNat_lt.mpr hk
  simp only [memberAt, ht, ok_bind, enumType]
  rw [if_pos ⟨Int.natCast_nonneg k, hvariants⟩, Int.toNat_natCast]

/-- The body of an enumeration gives back the member at the position of the label. -/
theorem runAll_enumBody {typeName : String} {labels members : List String}
    (ht : findType types typeName = .ok (enumType typeName labels members))
    (hlength : members.length = labels.length) (index : Int) :
    Context.runAll ⟨types, typeName, perform types (n + 1)⟩
        [("attribute", .attribute a), ("index", .int index), ("nullable", .bool nullable)]
        (enumBody labels) =
      (((Attribute.label labels a index nullable).mapError .violation).map
        (.ofOption (.member typeName))).map .done := by
  have harguments : Context.evalAll ⟨types, typeName, perform types (n + 1)⟩
      [("attribute", .attribute a), ("index", .int index), ("nullable", .bool nullable)]
      [.literal (.list (labels.map .string)), .var "index", .var "nullable"] =
        .ok [.list (labels.map .text), .int index, .bool nullable] := by
    rw [Context.evalAll, Context.eval_strings]
    rfl
  have hposition : Context.eval ⟨types, typeName, perform types (n + 1)⟩
      [("attribute", .attribute a), ("index", .int index), ("nullable", .bool nullable)]
      (invoke attributeVar "get_enum"
        [.literal (.list (labels.map .string)), .var "index", .var "nullable"]) =
        ((Attribute.label labels a index nullable).mapError .violation).map
          (.ofOption fun (p : Nat) => .int p) := by
    rw [Context.eval_invoke_attribute rfl (by decide) harguments]
    dsimp only
    rw [perform_attribute, attributeOperation, Context.mapM_asText, ok_bind]
    cases Attribute.label labels a index nullable <;> rfl
  rw [enumBody, Context.runAll, Context.run, Context.runStep, hposition]
  cases hlabel : Attribute.label labels a index nullable with
  | error v => rfl
  | ok r =>
      cases r with
      | none => rfl
      | some p =>
          obtain ⟨text, -, hp⟩ := Attribute.label_eq_some.mp hlabel
          have hmember := memberAt_enumType ht hlength (List.idxOf?_eq_some_iff.mp hp).1
          simp only [Except.mapError, Except.map, Value.ofOption, Option.map_some,
            Option.getD_some, Context.store, Context.runAll, Context.run, Context.runStep,
            Context.eval, List.lookup_cons_self, found, ok_bind, Value.isPresent, Bool.not_true,
            Value.asBool, Bool.false_eq_true, if_false, pure_eq_ok, hmember]

/-- The operation of an enumeration reads a label and gives the member at its position. -/
theorem perform_parse {typeName : String} {labels members : List String}
    (ht : findType types typeName = .ok (enumType typeName labels members))
    (hlength : members.length = labels.length) (index : Int) :
    perform types (n + 2) (.operation (.type typeName) "parse")
        [.attribute a, .int index, .bool nullable] =
      ((Attribute.label labels a index nullable).mapError .violation).map
        (.ofOption (.member typeName)) :=
  Context.runOperation_eq ht rfl rfl (Body.finish?_ofStatements _)
    (runAll_enumBody n a nullable ht hlength index)

/-- The type of an enumeration reads its labels. -/
theorem Complete.decides_parse (h : Complete s names types) {scope : Path} {name : String}
    {b : NameBinding Entity Made} (hb : names.binding? (.valueType scope name) = some b) :
    Decides ((ValueBase.valueType scope name).ReadsAt s nullable a.values i) (fun _ => True)
      (perform types (n + 2) (.operation (.type b.name) "parse")
        [.attribute a, .int i, .bool nullable]) := by
  obtain ⟨labels, members, hlabels, -, hlength, -, -, ht⟩ := h.enumeration hb
  refine Decides.congr ?_ (ValueBase.readsAt_valueType hlabels).symm
  rw [perform_parse n a nullable ht hlength]
  exact (Decides.lift (Attribute.label labels a i nullable)).map fun _ _ _ => trivial

/-! ## Structs -/

/-- A position is counted from the index at which the struct begins. -/
theorem eval_indexPlus {k : Context} {locals : Locals}
    (h : locals.lookup "index" = some (.int i)) (position : Nat) :
    k.eval locals (indexPlus position) = .ok (.int (i + position : Nat)) := by
  rw [indexPlus, Context.eval, Context.eval_var h, Context.eval_count, Int.natCast_add]
  rfl

/-- The value of a struct is read from the cell at its position. -/
theorem Complete.decides_structValue (h : Complete s names types) {known : TypeNames}
    (hkeeps : known.Keeps names) {v : StructValue} {position : Nat} {load : Expr}
    (hload : loadStructValue known position v = .ok load) {locals : Locals}
    (hattribute : locals.lookup "attribute" = some (.attribute a))
    (hindex : locals.lookup "index" = some (.int i)) (type : String) :
    Decides (v.base.ReadsAt s v.nullable a.values (i + position)) (fun _ => True)
      (Context.eval ⟨types, type, perform types (n + 2)⟩ locals load) := by
  obtain ⟨name, optional, base, nullable⟩ := v
  cases base with
  | predefined p =>
      cases hload
      have harguments : Context.evalAll ⟨types, type, perform types (n + 2)⟩ locals
          [text p.name, indexPlus position, flag nullable] =
            .ok [.text p.name, .int (i + position : Nat), .bool nullable] := by
        simp only [Context.evalAll, Context.eval_text, eval_indexPlus i hindex, Context.eval_flag,
          ok_bind, pure_eq_ok]
      dsimp only
      rw [Context.eval_invoke_attribute hattribute (by decide) harguments]
      exact decides_scalar a (i + position) nullable p
  | valueType scope valueName =>
      simp only [loadStructValue, bind_eq_ok, lift_name_eq_ok] at hload
      obtain ⟨typeName, hname, hload⟩ := hload
      cases hload
      obtain ⟨b, hb, rfl⟩ := exists_binding?_of_keeps hkeeps hname
      have harguments : Context.evalAll ⟨types, type, perform types (n + 2)⟩ locals
          [attributeVar, indexPlus position, flag nullable] =
            .ok [.attribute a, .int (i + position : Nat), .bool nullable] := by
        simp only [Context.evalAll, attributeVar, Context.eval_var hattribute,
          eval_indexPlus i hindex, Context.eval_flag, ok_bind, pure_eq_ok]
      dsimp only
      rw [Context.eval_invoke_type harguments]
      exact h.decides_parse n a (i + position) nullable hb

theorem holds_readerLocals :
    Context.Holds (readerLocals a i nullable) (readerLocals a i nullable) := by
  intro x v h
  simp only [readerLocals, List.mem_cons, Prod.mk.injEq, List.not_mem_nil, or_false] at h
  rcases h with ⟨rfl, rfl⟩ | ⟨rfl, rfl⟩ | ⟨rfl, rfl⟩
  · rfl
  · rfl
  · rfl

/-- The code of a field of a struct reads the cell at the field's position, if there is one. -/
theorem Complete.fills_structField (h : Complete s names types) {known : TypeNames}
    (hkeeps : known.Keeps names) {v : StructValue × Nat} {before after : MemberNames}
    {c : FieldCode} (hc : structField known before v = .ok (after, c)) (type : String) :
    Context.Fills ⟨types, type, perform types (n + 2)⟩ (readerLocals a i nullable) type
      (v.1.Reads s a.values[i + v.2]?) c := by
  obtain ⟨name, _, default, load, -, -, hload, hfield, hstatements⟩ := structField_eq_ok hc
  obtain rfl : c.field.name = name := by rw [hfield]
  intro rest locals hrest hready
  have hattribute := hready.holds "attribute" (.attribute a) (by simp [readerLocals])
  have hindex := hready.holds "index" (.int i) (by simp [readerLocals])
  have hassign : Decides (v.1.base.ReadsAt s v.1.nullable a.values (i + v.2))
      (Context.Flow.Proceeds (Context.Ready (readerLocals a i nullable) type (Context.AllNew rest)))
      (Context.runAll ⟨types, type, perform types (n + 2)⟩ locals
        [.step (.assign (.attr resultVar c.field.name) load)]) :=
    Context.decides_singleton (Context.decides_assign_new (by simp [readerLocals]) hready hrest
      (h.decides_structValue n a i hkeeps hload hattribute hindex type))
  have hcount : Context.eval ⟨types, type, perform types (n + 2)⟩ locals
      (.greater (.attr attributeVar "value_count") (indexPlus v.2)) =
        .ok (.bool (i + v.2 < a.values.length)) := by
    have htarget : Context.eval ⟨types, type, perform types (n + 2)⟩ locals
        (.attr attributeVar "value_count") = .ok (.int a.values.length) := by
      rw [Context.eval, attributeVar, Context.eval_var hattribute]
      rfl
    rw [Context.eval, htarget, eval_indexPlus i hindex]
    simp only [ok_bind, Value.asInt, pure_eq_ok, Int.ofNat_lt]
  rw [hstatements, structExtraction]
  split
  · rename_i hoptional
    refine Context.decides_singleton (Context.decides_if hcount (fun hlt => ?_) fun hlt => ?_)
    · exact hassign.congr (StructValue.readsAt_iff fun _ => of_decide_eq_true hlt)
    · rw [List.getElem?_eq_none (Nat.le_of_not_lt (of_decide_eq_false hlt))]
      exact ⟨hoptional, hready.tail⟩
  · rename_i hrequired
    exact hassign.congr (StructValue.readsAt_iff fun hoptional => absurd hoptional hrequired)

/-- Whether the item at the index is left out as null. -/
theorem eval_isNull (types : List DeclaredType) (type : String) {cell : Line.Cell}
    (hcell : a.values[i]? = some cell) :
    Context.eval ⟨types, type, perform types (n + 1)⟩ (readerLocals a i nullable)
      (.both (.var "nullable") (invoke attributeVar "is_null" [.var "index"])) =
        .ok (.bool (nullable && decide (cell = none))) := by
  have hnull : a.isNull i = .ok (decide (cell = none)) := by
    rw [Attribute.isNull, Attribute.cell_eq_ok.mpr hcell]
    rfl
  have hcall : Context.eval ⟨types, type, perform types (n + 1)⟩ (readerLocals a i nullable)
      (invoke attributeVar "is_null" [.var "index"]) = .ok (.bool (decide (cell = none))) := by
    rw [Context.eval_invoke_attribute (a := a) rfl (by decide) rfl]
    dsimp only
    rw [perform_attribute, attributeOperation, hnull]
    rfl
  rw [Context.eval, hcall]
  cases nullable with
  | true => rfl
  | false => rfl

/-- The type of a struct reads the cells from an index on. -/
theorem Complete.decides_read (h : Complete s names types) {scope : Path} {name : String}
    {b : NameBinding Entity Made} (hb : names.binding? (.struct scope name) = some b)
    (hi : i < a.values.length) :
    Decides ((Base.struct scope name).Reads s nullable (a.values.drop i)) (fun _ => True)
      (perform types (n + 3) (.operation (.type b.name) "read")
        [.attribute a, .int i, .bool nullable]) := by
  obtain ⟨d, cs, hd, -, hcs, hnodup, ht⟩ := h.struct hb
  have hcell := List.getElem?_eq_getElem hi
  generalize a.values[i] = cell at hcell
  have hhead : (a.values.drop i).head? = some cell := by rw [List.head?_drop, hcell]
  have hcondition := eval_isNull (n + 1) a i nullable types b.name hcell
  refine Context.decides_operation ht rfl (bindAll_readerParameters _ a i nullable)
    (Body.finish?_ofStatements _) ?_
  by_cases hnull : nullable = true ∧ cell = none
  · refine .of_eq_ok (a := .done .none) ?_ (.inl ⟨hnull.1, hnull.2 ▸ hhead⟩) ⟨_, rfl, trivial⟩
    rw [hnull.1, hnull.2] at hcondition
    rw [hnull.1, structBody, List.append_assoc, List.cons_append, Context.runAll, Context.run,
      hcondition]
    rfl
  · have hiff : (Base.struct scope name).Reads s nullable (a.values.drop i) ↔
        True ∧ True ∧ ∀ x ∈ d.values.zipIdx, x.1.Reads s a.values[i + x.2]? := by
      simp only [Base.Reads, hhead, hd, Option.some.injEq, hnull, false_or, exists_eq_left',
        Struct.Reads, List.getElem?_drop, true_and]
    refine Decides.congr ?_ hiff.symm
    refine Context.decides_cons (P := (· = readerLocals a i nullable))
      (Context.decides_if hcondition (fun htrue => ?_) fun _ => ⟨trivial, rfl⟩) ?_
    · simp only [Bool.and_eq_true, decide_eq_true_eq] at htrue
      exact absurd htrue hnull
    · rintro after - rfl
      refine (Context.decides_record (k := ⟨types, b.name, perform types (n + 2)⟩)
        (G := Context.AllNew []) (h.decides_new_struct n hcs hnodup ht)
        (holds_readerLocals a i nullable) (by simp [readerLocals]) fun after hready => ?_).imp ?_
      · refine Context.decides_fields [] (hcs.imp ?_) ?_ ?_
        · rintro v c ⟨known, hkeeps, before, after, hc⟩
          exact h.fills_structField n a i nullable hkeeps hc b.name
        · rwa [List.append_nil, List.map_map]
        · rwa [List.append_nil]
      · rintro flow ⟨v, rfl, -⟩
        exact ⟨v, rfl, trivial⟩

end

end Code

/-! ## Data types -/

/-- A struct reads no more cells than it has values. -/
theorem Struct.reads_take {s : Schema} {d : Struct} {cells : List Line.Cell} :
    d.Reads s (cells.take d.values.length) ↔ d.Reads s cells := by
  refine forall_congr' fun x => forall_congr' fun hx => ?_
  have hlt := List.snd_lt_of_mem_zipIdx hx
  rw [Nat.add_zero] at hlt
  rw [List.getElem?_take_of_lt hlt]

/-- An item is read from the cells that it takes up at most. -/
theorem Base.reads_take_struct {s : Schema} {scope : Path} {name : String} {d : Struct}
    (hd : s.structAt? scope name = some d) (hvalues : 0 < d.values.length) {nullable : Bool}
    {cells : List Line.Cell} :
    (Base.struct scope name).Reads s nullable (cells.take d.values.length) ↔
      (Base.struct scope name).Reads s nullable cells := by
  simp only [Base.Reads, hd, Option.some.injEq, exists_eq_left', Struct.reads_take]
  rw [List.head?_take, if_neg (Nat.ne_of_gt hvalues)]

/-- A base of single values reads one cell. -/
theorem Base.reads_take_value {s : Schema} {b : ValueBase} {nullable : Bool}
    {cells : List Line.Cell} {i : Nat} :
    (Base.value b).Reads s nullable ((cells.drop i).take 1) ↔ b.ReadsAt s nullable cells i := by
  simp only [Base.Reads, ValueBase.ReadsAt, ← List.head?_drop]
  cases cells.drop i with
  | nil => simp
  | cons c rest => simp

namespace Attribute

variable {a : Attribute}

/-- The values fall into a number of items. -/
theorem itemCount_eq_ok {arity : Nat} (harity : 0 < arity) {min : Nat} {max : Option Nat}
    {count : Nat} :
    a.itemCount min (max.map Int.ofNat) arity = .ok count ↔
      a.values.length = count * arity ∧ min ≤ count ∧ ∀ m, max = some m → count ≤ m := by
  rw [itemCount_eq_ok_iff_fits harity]
  constructor
  · rintro ⟨hfits, rfl⟩
    refine ⟨hfits.valueCount_eq, Int.ofNat_le.mp hfits.least, fun m hm => ?_⟩
    exact Int.ofNat_le.mp (hfits.greatest m (congrArg (Option.map Int.ofNat) hm))
  · rintro ⟨hlength, hleast, hgreatest⟩
    have hcount : a.valueCount / arity = count := by
      rw [valueCount, hlength, Nat.mul_div_cancel count harity]
    refine ⟨⟨⟨count, hlength.trans (Nat.mul_comm count arity)⟩, ?_, fun m hm => ?_⟩, hcount.symm⟩
    · rw [hcount]
      exact Int.ofNat_le.mpr hleast
    · obtain ⟨n, hn, rfl⟩ := Option.map_eq_some_iff.mp hm
      rw [hcount]
      exact Int.ofNat_le.mpr (hgreatest n hn)

end Attribute

namespace Code

section

variable {s : Schema} {call : Value → List Value → Except Fault Value} {a : Attribute}
  {read : Value}

/-- A whole attribute is read as one item. -/
theorem decides_single {C : Prop} {nullable : Bool} {least greatest : Nat}
    (hread : Decides C (fun _ => True) (call read [.attribute a, .int 0, .bool nullable])) :
    Decides ((nullable = true ∧ a.values = [none]) ∨
        least ≤ a.values.length ∧ a.values.length ≤ greatest ∧ C) (fun _ => True)
      (attributeOperation call a "as_single"
        [read, .bool nullable, .int least, .int greatest]) := by
  rw [attributeOperation]
  refine Decides.map (P := fun _ => True) ?_ fun _ _ _ => trivial
  by_cases hnull : nullable = true ∧ a.values = [none]
  · refine .of_eq_ok (a := none) ?_ (.inl hnull) trivial
    simp [Attribute.singleM, Attribute.isLoneNull, hnull]
  · have hlone : ¬ (nullable && a.isLoneNull) = true := by
      rwa [Bool.and_eq_true, Attribute.isLoneNull, decide_eq_true_eq]
    have hbounds : (∃ u, a.assureValueBounds least (some greatest) = .ok u) ↔
        least ≤ a.values.length ∧ a.values.length ≤ greatest := by
      simp [Attribute.assureValueBounds_eq_ok, Attribute.withinBounds]
    rw [Attribute.singleM, if_neg hlone]
    refine ((Decides.lift (a.assureValueBounds least (some greatest))).bind (D := C)
      fun _ _ _ => hread.map fun _ _ _ => trivial).congr ?_
    rw [hbounds, and_assoc, or_iff_right hnull]

/-- A whole attribute is read as a row of items. -/
theorem decides_array {base : Base} {nullable arrayNullable : Bool} {range : Occurrence}
    {arity : Nat} (harity : 0 < arity)
    (hread : ∀ i < a.values.length,
      Decides (base.Reads s nullable ((a.values.drop i).take arity)) (fun _ => True)
        (call read [.attribute a, .int i, .bool nullable])) :
    Decides ((arrayNullable = true ∧ a.values = [none]) ∨
        base.ReadsAll s nullable arity range a.values) (fun _ => True)
      (attributeOperation call a "as_array" [read, .int range.min,
        .ofOption (fun (m : Nat) => .int m) range.max, .bool nullable, .bool arrayNullable,
        .int arity]) := by
  have hbound : (Value.ofOption (fun (m : Nat) => .int m) range.max).asBound =
      .ok (range.max.map Int.ofNat) := by
    cases range.max with
    | none => rfl
    | some m => rfl
  rw [attributeOperation, hbound, ok_bind]
  refine Decides.bind_ok (P := fun _ => True) ?_ fun _ _ _ => ⟨_, rfl, trivial⟩
  by_cases hnull : arrayNullable = true ∧ a.values = [none]
  · exact .of_eq_ok (Attribute.arrayM_of_null _ hnull) (.inl hnull) trivial
  · rw [Attribute.arrayM_of_not_null _ hnull]
    refine ((Decides.lift (a.itemCount range.min (range.max.map Int.ofNat) arity)).bind
      (D := base.ReadsAll s nullable arity range a.values) fun count _ hcount => ?_).congr ?_
    · obtain ⟨hlength, hrange⟩ := (Attribute.itemCount_eq_ok harity).mp hcount
      have hparts : ∀ i ∈ List.range count,
          Decides (base.Reads s nullable ((a.values.drop (i * arity)).take arity)) (fun _ => True)
            (readerOf call read a (i * arity) nullable) := by
        intro i hi
        have hlt : i * arity < a.values.length :=
          hlength ▸ Nat.mul_lt_mul_of_pos_right (List.mem_range.mp hi) harity
        have hitem := hread (i * arity) hlt
        rw [Int.natCast_mul] at hitem
        exact hitem.map fun _ _ _ => trivial
      refine ((Decides.mapM hparts).map fun _ _ _ => trivial).congr ?_
      rw [Base.readsAll_iff_of_length harity hrange hlength]
      simp only [List.mem_range]
    · rw [or_iff_right hnull]
      refine and_iff_right_of_imp fun h => ?_
      obtain ⟨count, hrange, hlength, -⟩ := Base.readsAll_iff.mp h
      exact ⟨count, (Attribute.itemCount_eq_ok harity).mpr ⟨hlength, hrange⟩⟩

end

section

variable {s : Schema} {names known : TypeNames} {types : List DeclaredType} {base : Base}
  {least greatest : Nat}

/-- The number of cells of an item is that of its definition. -/
theorem Complete.arity_eq_ok (h : Complete s names types) (hkeeps : known.Keeps names)
    (harity : arity known base = .ok (least, greatest)) :
    base.arity? s = some (least, greatest) ∧ 0 < greatest := by
  cases base with
  | value b =>
      cases harity
      exact ⟨rfl, Nat.one_pos⟩
  | struct scope name =>
      simp only [arity, bind_eq_ok, lift_name_eq_ok] at harity
      obtain ⟨made, hmade, harity⟩ := harity
      obtain ⟨b, hb, rfl⟩ := Names.constructOf_eq_ok.mp hmade
      obtain ⟨d, _, hd, hconstruct, -⟩ := h.struct (hkeeps.binding? hb)
      rw [hconstruct] at harity
      dsimp only at harity
      split at harity
      · cases harity
      · rename_i hvalues
        cases harity
        refine ⟨by rw [Base.arity?, hd]; rfl, List.length_pos_iff.mpr fun hnil => hvalues ?_⟩
        rw [hnil]
        rfl

/-- What reads an item reads the cells that the item takes up. -/
theorem Complete.decides_itemReader (h : Complete s names types) (hkeeps : known.Keeps names)
    (harity : arity known base = .ok (least, greatest)) {read : Expr}
    (hread : itemReader known base = .ok read) (n : Nat) (locals : Locals) (type : String) :
    ∃ r, Context.eval ⟨types, type, perform types (n + 4)⟩ locals read = .ok r ∧
      ∀ (a : Attribute) (i : Nat) (nullable : Bool), i < a.values.length →
        Decides (base.Reads s nullable ((a.values.drop i).take greatest)) (fun _ => True)
          (perform types (n + 3) r [.attribute a, .int i, .bool nullable]) := by
  obtain ⟨hbase, hpos⟩ := h.arity_eq_ok hkeeps harity
  cases base with
  | value b =>
      cases harity
      cases b with
      | predefined p =>
          cases hread
          refine ⟨.reader p.name, rfl, fun a i nullable _ => ?_⟩
          exact (decides_scalar a i nullable p).congr Base.reads_take_value.symm
      | valueType scope name =>
          simp only [itemReader, bind_eq_ok, lift_name_eq_ok] at hread
          obtain ⟨typeName, hname, hread⟩ := hread
          cases hread
          obtain ⟨b, hb, rfl⟩ := exists_binding?_of_keeps hkeeps hname
          refine ⟨_, rfl, fun a i nullable _ => ?_⟩
          exact (h.decides_parse (n + 1) a i nullable hb).congr Base.reads_take_value.symm
  | struct scope name =>
      simp only [itemReader, bind_eq_ok, lift_name_eq_ok] at hread
      obtain ⟨typeName, hname, hread⟩ := hread
      cases hread
      obtain ⟨b, hb, rfl⟩ := exists_binding?_of_keeps hkeeps hname
      obtain ⟨d, hd, heq⟩ := Option.map_eq_some_iff.mp hbase
      cases heq
      refine ⟨_, rfl, fun a i nullable hi => ?_⟩
      exact (h.decides_read n a i nullable hb hi).congr (Base.reads_take_struct hd hpos).symm

/-- The expression that loads an attribute reads its values as the type. -/
theorem Complete.decides_loadValue (h : Complete s names types) (hkeeps : known.Keeps names)
    {t : DataType} {load : Expr} (hload : loadValue known t = .ok load) (n : Nat)
    {locals : Locals} {a : Attribute} (hattribute : locals.lookup "attribute" = some (.attribute a))
    (type : String) :
    Decides (t.Reads s a.values) (fun _ => True)
      (Context.eval ⟨types, type, perform types (n + 4)⟩ locals load) := by
  obtain ⟨base, nullable, array⟩ := t
  simp only [loadValue, bind_eq_ok] at hload
  obtain ⟨⟨least, greatest⟩, harity, read, hread, hload⟩ := hload
  obtain ⟨hbase, hpos⟩ := h.arity_eq_ok hkeeps harity
  obtain ⟨r, hr, hitems⟩ := h.decides_itemReader hkeeps harity hread n locals type
  have hvalues := List.length_pos_iff.mpr a.values_ne_nil
  cases array with
  | none =>
      cases hload
      have harguments : Context.evalAll ⟨types, type, perform types (n + 4)⟩ locals
          [read, flag nullable, count least, count greatest] =
            .ok [r, .bool nullable, .int least, .int greatest] := by
        rw [Context.evalAll, hr]
        rfl
      rw [Context.eval_invoke_attribute hattribute (by decide) harguments]
      dsimp only
      rw [perform_attribute]
      exact (decides_single (hitems a 0 nullable hvalues)).congr
        (DataType.reads_single_iff hbase).symm
  | some array =>
      cases hload
      have harguments : Context.evalAll ⟨types, type, perform types (n + 4)⟩ locals
          [read, count array.range.min,
            .literal ((array.range.max.map fun n => .int n).getD .none), flag nullable,
            flag array.nullable, count greatest] =
            .ok [r, .int array.range.min, .ofOption (fun (m : Nat) => .int m) array.range.max,
              .bool nullable, .bool array.nullable, .int greatest] := by
        rw [Context.evalAll, hr]
        cases array.range.max with
        | none => rfl
        | some m => rfl
      rw [Context.eval_invoke_attribute hattribute (by decide) harguments]
      dsimp only
      rw [perform_attribute]
      exact (decides_array hpos fun i hi => hitems a i nullable hi).congr
        (DataType.reads_array_iff hbase).symm

end

end Code

end SmlSchema
