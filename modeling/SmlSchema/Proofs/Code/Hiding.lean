import SmlSchema.Proofs.Code.Identifiers
import SmlSchema.Proofs.Code.WellTyped

/-! # Fields that hide types

The body of a record is evaluated from top to bottom, so a field hides a type of the same name from
the defaults below it. Names of types begin in upper case and names of fields in lower case, which
keeps them apart unless the first character has no letter case at all.
-/

namespace SmlSchema

namespace Code

/-! ## The letter case of names -/

theorem inCase_underscore (toUpper : Bool) : InCase toUpper '_' := by
  cases toUpper <;> decide +kernel

/-- The guards leave an identifier in its letter case. -/
theorem inCase_identifier (toUpper : Bool) (name : String) :
    BeginsWith (InCase toUpper) (identifier toUpper name) := by
  obtain ⟨c, cs, hcase, hc⟩ := exists_leadingCaseChars toUpper name
  refine (beginsWith_identifier hcase ?_ (inCase_underscore toUpper)).mpr (.inr hc)
  rintro rfl
  decide +kernel

/-- The name was made for a field. -/
inductive IsFieldName (name : String) : Prop where
  | intro (base : String) (h : name ∈ Names.candidates (identifier false base))

/-- A field begins in lower case. -/
theorem IsFieldName.beginsWith {name : String} (h : IsFieldName name) :
    BeginsWith (InCase false) name := by
  obtain ⟨base, hmem⟩ := h
  have hbase := inCase_identifier false base
  exact (beginsWith_candidate hbase.ne_nil hmem).mpr hbase

/-- A type begins in upper case. -/
theorem IsTypeName.beginsWith {name : String} (h : IsTypeName name) :
    BeginsWith (InCase true) name := by
  obtain ⟨base, hmem⟩ := h
  have hbase := inCase_identifier true base
  exact (beginsWith_candidate hbase.ne_nil hmem).mpr hbase

/-- The name begins with a character that has no letter case. -/
def IsCaseless (name : String) : Prop :=
  BeginsWith (fun c => Text.upperChar c = [c] ∧ Text.lowerChar c = [c]) name

/-- Only a name without letter case can be a field and a type at once. -/
theorem isCaseless_of_isFieldName {name : String} (hfield : IsFieldName name)
    (htype : IsTypeName name) : IsCaseless name := by
  obtain ⟨c, rest, hname, hupper⟩ := htype.beginsWith
  obtain ⟨d, rest', hname', hlower⟩ := hfield.beginsWith
  rw [hname] at hname'
  cases hname'
  exact ⟨c, rest, hname, hupper, hlower⟩

/-! ## Names of fields -/

/-- Names of fields stay in lower case while they are made one after the other. -/
theorem isFieldName_of_gather {make : MemberNames → α → Except Error (MemberNames × FieldCode)}
    (base : α → String)
    (hmake : ∀ {fields next : MemberNames} {a : α} {c : FieldCode},
      make fields a = .ok (next, c) → fields.reserve (base a) = .ok (c.field.name, next))
    {as : List α} {fields last : MemberNames} {cs : List FieldCode}
    (h : gather make fields as = .ok (last, cs)) (hfields : fields.normalize = identifier false) :
    last.normalize = identifier false ∧ ∀ c ∈ cs, IsFieldName c.field.name := by
  induction as generalizing fields cs with
  | nil =>
      cases h
      exact ⟨hfields, List.forall_mem_nil _⟩
  | cons a as ih =>
      obtain ⟨⟨next, c⟩, hc, h⟩ := bind_eq_ok.mp h
      obtain ⟨⟨end', ds⟩, hds, h⟩ := bind_eq_ok.mp h
      cases h
      obtain ⟨hname, hnext⟩ := Names.reserve_eq_ok (hmake hc)
      rw [hfields] at hname hnext
      obtain ⟨hlast, hrest⟩ := ih hds hnext
      exact ⟨hlast, List.forall_mem_cons.mpr ⟨⟨_, hname⟩, hrest⟩⟩

/-- All fields of a declared type have names of fields. -/
theorem Declares.isFieldName {s : Schema} {names : TypeNames} {b : NameBinding Entity Made}
    {t : DeclaredType} (h : Declares s names b t) :
    ∀ f ∈ t.shape.fields, IsFieldName f.name := by
  have hstart : (MemberNames.start false).normalize = identifier false := by
    rw [MemberNames.start]
  cases h with
  | enumeration => exact List.forall_mem_nil _
  | struct _ _ gather =>
      have hcs := (isFieldName_of_gather (fun v : StructValue × Nat => v.1.name)
        structField_reserve gather hstart).2
      exact List.forall_mem_map.mpr hcs
  | element _ _ attributes elements =>
      obtain ⟨hmid, hcs⟩ := isFieldName_of_gather
        (fun a : AttributeEntry => fieldBase a.occurrence a.name) attributeField_reserve attributes
        hstart
      have hds := (isFieldName_of_gather (fun x : ElementEntry => fieldBase x.occurrence x.name)
        elementField_reserve elements hmid).2
      exact List.forall_mem_map.mpr (List.forall_mem_append.mpr ⟨hcs, hds⟩)

/-! ## Hidden types -/

/-- The enumeration that a default names. -/
def Default.enumeration? : Default → Option String
  | .member type _ => some type
  | .zero _ | .none | .emptyList | .newInstance _ | .foreign _ => Option.none

/-- No field has the name of an enumeration that the default of a later field names. -/
def Unhidden (fields : List Field) : Prop :=
  fields.Pairwise fun f g => g.default.enumeration? ≠ some f.name

instance (fields : List Field) : Decidable (Unhidden fields) :=
  inferInstanceAs (Decidable (fields.Pairwise _))

/-- The enumeration of a default is declared earlier. -/
theorem Default.Inhabits.exists_enumeration {types earlier : List DeclaredType} {d : Default}
    {t : TypeDesc} (h : d.Inhabits types earlier t) {type : String}
    (htype : d.enumeration? = some type) : ∃ u ∈ earlier, u.name = type := by
  cases h with
  | zero => cases htype
  | none => cases htype
  | emptyList => cases htype
  | newInstance => cases htype
  | member mem =>
      cases htype
      exact ⟨_, mem, rfl⟩

namespace Complete

variable {s : Schema} {names : TypeNames} {types : List DeclaredType} {t u : DeclaredType}

/-- A field has the name of a type only if that begins with a character without letter case. -/
theorem isCaseless_of_name_eq (h : Complete s names types) (ht : t ∈ types) {f : Field}
    (hf : f ∈ t.shape.fields) (hu : u ∈ types) (hname : f.name = u.name) : IsCaseless u.name := by
  obtain ⟨b, hb⟩ := h.exists_declares ht
  have hused : u.name ∈ names.used := by
    rw [← h.map_name]
    exact List.mem_map.mpr ⟨u, hu, rfl⟩
  exact isCaseless_of_isFieldName (hname ▸ Declares.isFieldName hb f hf)
    (h.register.typeNames u.name hused)

/-- In a complete declaration no field hides an enumeration whose name has a letter case. -/
theorem unhidden (h : Complete s names types) (ht : t ∈ types)
    (hcased : ∀ g ∈ t.shape.fields, ∀ type, g.default.enumeration? = some type →
      ¬ IsCaseless type) : Unhidden t.shape.fields := by
  -- an enumeration is a type of the module, wherever it is declared
  have htyped := h.wellTyped ht fun _ _ u hu _ _ => hu
  refine List.pairwise_of_forall_mem_list fun f hf g hg heq => ?_
  obtain ⟨u, hu, hname⟩ := (htyped.defaults g hg).exists_enumeration heq
  refine hcased g hg f.name heq ?_
  rw [← hname]
  exact h.isCaseless_of_name_eq ht hf hu hname.symm

end Complete

end Code

namespace Schema

open Code

variable {s : Schema}

/-- In the module that was made for a loaded schema, a field has the name of a type only if the name
begins with a character without letter case. So a record in which no default names an enumeration of
such a name has no field that hides an enumeration from a later default. -/
theorem unhidden_of_cased {text runtime code : String} (h : (parse text).result = .ok s)
    (hcode : (s.generate runtime).result = .ok code) :
    ∃ names types, s.declarations.result = .ok (names, types) ∧
      Module.code ⟨runtime, types⟩ = .ok code ∧
      (∀ t ∈ types, ∀ f ∈ t.shape.fields, ∀ u ∈ types, f.name = u.name → IsCaseless u.name) ∧
      ∀ t ∈ types, (∀ g ∈ t.shape.fields, ∀ type, g.default.enumeration? = some type →
        ¬ IsCaseless type) → Unhidden t.shape.fields := by
  obtain ⟨names, types, hdeclarations, hprinted⟩ := declarations_of_generate hcode
  have hcomplete := complete_of_declarations (wellFormed_of_parse h) hdeclarations
  exact ⟨names, types, hdeclarations, hprinted,
    fun t ht f hf u hu hname => hcomplete.isCaseless_of_name_eq ht hf hu hname,
    fun t ht hcased => hcomplete.unhidden ht hcased⟩

theorem enumeration?_nested {names : TypeNames} {types : List DeclaredType}
    (h : nestedSchema.declarations.result = .ok (names, types)) {t : DeclaredType} (ht : t ∈ types)
    {g : Field} (hg : g ∈ t.shape.fields) {type : String}
    (htype : g.default.enumeration? = some type) : type = "IEnum" := by
  have hall : nestedSchema.declarations.result.toOption.all (fun g => g.2.all fun t =>
      t.shape.fields.all fun f => f.default.enumeration?.all (· == "IEnum")) = true := by
    decide +kernel
  rw [h] at hall
  have hdefault := List.all_eq_true.mp (List.all_eq_true.mp hall t ht) g hg
  rw [htype] at hdefault
  exact eq_of_beq hdefault

/-- In the nested schema no field hides the only enumeration. -/
theorem unhidden_of_cased_nested :
    (parse nestedText).result = .ok nestedSchema ∧
      ∃ code, (nestedSchema.generate "sml_document").result = .ok code ∧
        ∃ names types, nestedSchema.declarations.result = .ok (names, types) ∧
          types.map (·.name) = ["IEnum", "PStruct", "IDocument", "IElement"] ∧
          ∀ t ∈ types, Unhidden t.shape.fields := by
  have hcased : ¬ IsCaseless "IEnum" := by
    rintro ⟨c, rest, hname, -, hlower⟩
    obtain rfl : 'I' = c := List.head_eq_of_cons_eq hname
    exact absurd hlower (by decide +kernel)
  obtain ⟨code, hcode⟩ := exists_generate_nested
  obtain ⟨names, types, hdeclarations, -, -, hunhidden⟩ := unhidden_of_cased parse_nestedText hcode
  refine ⟨parse_nestedText, code, hcode, names, types, hdeclarations,
    map_name_nested hdeclarations, fun t ht => hunhidden t ht fun g hg type htype => ?_⟩
  rwa [enumeration?_nested hdeclarations ht hg htype]

/-- A schema in which an attribute has the name that the type of an enumeration gets. -/
def underscoreText : String :=
  "Schema\nEnumType\nName _x\nValues A\nEnd\nElement\nName R\nUnorderedContent\n" ++
    "Attribute _xEnum Required Int\nAttribute b Required _x\nEnd\nEnd\nEnd"

def underscoreSchema : Schema where
  definitions := {
    valueTypes := [.enum "_x" ["A"]]
    elements := [{
      name := "R"
      content := some (.unordered
        [.inline ⟨"_xEnum", some ⟨.value (.predefined .int), false, none⟩⟩ .required,
         .inline ⟨"b", some ⟨.value (.valueType [] "_x"), false, none⟩⟩ .required] []) }] }
  root := some "R"

/-- The field of the first attribute hides the enumeration from the default of the second. -/
theorem not_unhidden_underscore :
    (parse underscoreText).result = .ok underscoreSchema ∧
      ∃ code, (underscoreSchema.generate "sml_document").result = .ok code ∧
        ∃ names types t, underscoreSchema.declarations.result = .ok (names, types) ∧ t ∈ types ∧
          ¬ Unhidden t.shape.fields := by
  have hparse : (parse underscoreText).result = .ok underscoreSchema :=
    eq_ok_of_toOption (by decide +kernel)
  have hall : underscoreSchema.declarations.result.toOption.all (fun g =>
      g.2.all fun t => decide (Unhidden t.shape.fields)) = false := by decide +kernel
  obtain ⟨code, hcode⟩ := (wellFormed_of_parse hparse).exists_generate (by decide) (by decide)
    (fun name ⟨_, _, _, _, _, hd, _⟩ => List.not_mem_nil hd) "sml_document"
  obtain ⟨names, types, hdeclarations, -⟩ := declarations_of_generate hcode
  rw [hdeclarations] at hall
  obtain ⟨t, ht, hhidden⟩ := List.all_eq_false.mp hall
  exact ⟨hparse, code, hcode, names, types, t, hdeclarations, ht,
    fun h => hhidden (decide_eq_true h)⟩

end Schema

end SmlSchema
