import SmlSchema.Proofs.Code.Loaders

/-! # The types of a module in order

A module has one type for each definition of the schema and no others: first the enumerations, then
the structs, then the elements. All types have different names, and only the one of the root element
reads whole documents.
-/

namespace SmlSchema

/-- A pairing of a concatenation splits where the concatenation does. -/
theorem forall₂_append_left {R : α → β → Prop} {as bs : List α} {cs : List β}
    (h : List.Forall₂ R (as ++ bs) cs) :
    ∃ ds es, cs = ds ++ es ∧ List.Forall₂ R as ds ∧ List.Forall₂ R bs es :=
  ⟨cs.take as.length, cs.drop as.length, (List.take_append_drop _ _).symm,
    (List.forall₂_take_append _ _ _ h.flip).flip, (List.forall₂_drop_append _ _ _ h.flip).flip⟩

/-- What is in one list has its counterpart in the other. -/
theorem exists_mem_zip_of_forall₂ {R : α → β → Prop} {as : List α} {bs : List β}
    (h : List.Forall₂ R as bs) {a : α} (ha : a ∈ as) : ∃ b, (a, b) ∈ as.zip bs ∧ R a b := by
  induction h with
  | nil => cases ha
  | @cons a' b as bs hab _ ih =>
      rw [List.zip_cons_cons]
      rcases List.mem_cons.mp ha with rfl | ha
      · exact ⟨b, List.mem_cons_self, hab⟩
      · obtain ⟨c, hc, hac⟩ := ih ha
        exact ⟨c, List.mem_cons_of_mem _ hc, hac⟩

/-- In a pairing the relation can be weakened for the members only. -/
theorem forall₂_imp_of_mem {R S : α → β → Prop} {as : List α} {bs : List β}
    (h : List.Forall₂ R as bs) (hS : ∀ a ∈ as, ∀ b, R a b → S a b) : List.Forall₂ S as bs :=
  ((List.forall₂_and_left _ _).mpr ⟨hS, h⟩).imp fun _ b hab => hab.1 b hab.2

/-- Found under its own entity. -/
theorem Names.binding?_of_mem [DecidableEq ε] {n : Names ε κ}
    (hnodup : (n.bindings.map (·.entity)).Nodup) {b : NameBinding ε κ} (hb : b ∈ n.bindings) :
    n.binding? b.entity = some b := by
  obtain ⟨c, hc⟩ := Names.exists_binding? (List.mem_map.mpr ⟨b, hb, rfl⟩)
  obtain ⟨hmem, hentity⟩ := Names.mem_of_binding? hc
  rw [hc, List.inj_on_of_nodup_map hnodup hmem hb hentity]

/-- Depth first: every element stands where its own scope stands among the scopes, and those of one
scope are in the order in which it defines them. -/
structure Schema.InScopeOrder (s : Schema) (xs : List (Path × ElementDef)) : Prop where
  scopes : s.scopes = ([], s.definitions) :: xs.map fun x => (x.2.name :: x.1, x.2.scope)
  defined : ∀ d ∈ s.scopes, (d.2.elements.map (d.1, ·)).Sublist xs

/-- All elements of a schema come in scope order. -/
theorem Schema.inScopeOrder (s : Schema) : s.InScopeOrder s.allElements :=
  ⟨s.scopes_eq, fun _ hd => sublist_allElements hd⟩

namespace Code

variable {s : Schema} {names : TypeNames} {types : List DeclaredType}

/-! ## The type of a definition -/

/-- The type was made for the definition, and has the name that the definition has. -/
inductive MadeFor (s : Schema) (names : TypeNames) (e : Entity) (t : DeclaredType) : Prop where
  | intro {b : NameBinding Entity Made} (found : names.binding? e = some b)
      (declares : Declares s names b t)

/-- An enumeration with the labels of the value type. -/
inductive EnumerationOf (names : TypeNames) : Path × ValueType → DeclaredType → Prop where
  | intro {path : Path} {name : String} {labels : List String} {t : DeclaredType}
      {variants : List Variant} (named : names.nameOf (.valueType path name) = .ok t.name)
      (shape : t.shape = .enumeration variants)
      (literals : variants.map (·.literal) = labels.map .string) :
      EnumerationOf names (path, .enum name labels) t

/-- A record with a field for each part of the definition. -/
inductive RecordOf (names : TypeNames) (e : Entity) (parts : Nat) (t : DeclaredType) : Prop where
  | intro {fields : List Field} (named : names.nameOf e = .ok t.name)
      (shape : t.shape = .record fields) (length : fields.length = parts)

/-- An operation of the type reads the content of a document. -/
def DeclaredType.ReadsContent (t : DeclaredType) : Prop :=
  ∃ m ∈ t.methods, m.signature.name = "parse" ∧
    m.signature.parameters.map (·.name) = ["content"]

/-- The variants of an enumeration have its labels as their literals. -/
theorem map_literal_zipWith {labels members : List String}
    (h : members.length = labels.length) :
    (List.zipWith (fun m l => Variant.mk m (.string l)) members labels).map (·.literal) =
      labels.map .string := by
  refine List.ext_getElem ?_ fun i _ _ => ?_
  · simp only [List.length_map, List.length_zipWith, h, Nat.min_self]
  · simp only [List.getElem_map, List.getElem_zipWith]

namespace MadeFor

variable {e : Entity} {t : DeclaredType}

/-- What is made for an entity has the entity's name. -/
theorem named (h : MadeFor s names e t) : names.nameOf e = .ok t.name := by
  obtain ⟨hb, hdeclares⟩ := h
  exact Names.nameOf_eq_ok.mpr ⟨_, hb, hdeclares.name.symm⟩

/-- A scope has one value type of a name, so the labels are those of the one at hand. -/
theorem enumeration (hs : s.WellFormed) {path : Path} {v : ValueType}
    (hv : (path, v) ∈ s.allValueTypes) (h : MadeFor s names (.valueType path v.name) t) :
    EnumerationOf names (path, v) t := by
  have hnamed := h.named
  obtain ⟨hb, hdeclares⟩ := h
  have hentity := (Names.mem_of_binding? hb).2
  have hfound := hs.valueTypeAt?_of_mem hv
  cases hdeclares with
  | @enumeration scope name typeName labels members mem length nodup =>
      obtain ⟨rfl, hname⟩ := Entity.valueType.inj hentity
      obtain rfl : v = .enum name labels :=
        Option.some.inj (hfound.symm.trans (hname ▸ hs.valueTypeAt?_of_mem mem))
      exact .intro hnamed rfl (map_literal_zipWith length)
  | struct => cases hentity
  | element => cases hentity

/-- What is made for a struct is a record with a field for each value. -/
theorem struct (hs : s.WellFormed) {path : Path} {d : Struct} (hd : (path, d) ∈ s.allStructs)
    (h : MadeFor s names (.struct path d.name) t) :
    RecordOf names (.struct path d.name) d.values.length t := by
  have hnamed := h.named
  obtain ⟨hb, hdeclares⟩ := h
  have hentity := (Names.mem_of_binding? hb).2
  have hfound := hs.structAt?_of_mem hd
  cases hdeclares with
  | enumeration => cases hentity
  | @struct scope c typeName known fields cs mem keeps gather nodup =>
      obtain ⟨rfl, hname⟩ := Entity.struct.inj hentity
      obtain rfl : d = c :=
        Option.some.inj (hfound.symm.trans (hname ▸ hs.structAt?_of_mem mem))
      refine .intro hnamed rfl ?_
      rw [List.length_map, ← (gather_eq_ok gather).length_eq, List.length_zipIdx]
  | element => cases hentity

/-- What is made for an element is a record with a field for each entry. -/
theorem element (hs : s.WellFormed) {path : Path} {d : ElementDef}
    (hd : (path, d) ∈ s.allElements) (h : MadeFor s names (.element path d.name) t) :
    RecordOf names (.element path d.name) (d.attributeEntries.length + d.elementEntries.length)
      t := by
  have hnamed := h.named
  obtain ⟨hb, hdeclares⟩ := h
  have hentity := (Names.mem_of_binding? hb).2
  have hfound := hs.elementAt?_of_mem hd
  cases hdeclares with
  | enumeration => cases hentity
  | struct => cases hentity
  | @element scope c typeName known isRoot fields last cs ds mem keeps attributes elements =>
      obtain ⟨rfl, hname⟩ := Entity.element.inj hentity
      obtain rfl : d = c :=
        Option.some.inj (hfound.symm.trans (hname ▸ hs.elementAt?_of_mem mem))
      refine .intro hnamed rfl ?_
      rw [List.length_map, List.length_append, ← (gather_eq_ok attributes).length_eq,
        ← (gather_eq_ok elements).length_eq]

/-- Only the type of the root element reads whole documents. -/
theorem readsContent_iff (h : MadeFor s names e t) :
    t.ReadsContent ↔ ∃ root, s.root = some root ∧ e = .element [] root := by
  obtain ⟨hb, hdeclares⟩ := h
  obtain rfl := (Names.mem_of_binding? hb).2
  -- enumerations and structs have one operation, which reads an item of an attribute
  have hreader : readerParameters.map (·.name) ≠ ["content"] := by decide
  cases hdeclares with
  | enumeration =>
      refine iff_of_false ?_ nofun
      rintro ⟨m, hm, -, hparameters⟩
      cases List.mem_singleton.mp hm
      exact hreader hparameters
  | struct =>
      refine iff_of_false ?_ nofun
      rintro ⟨m, hm, -, hparameters⟩
      cases List.mem_singleton.mp hm
      exact hreader hparameters
  | @element scope c typeName known isRoot fields last cs ds mem keeps attributes elements nodup
      root =>
      cases isRoot with
      | true =>
          obtain ⟨rfl, hroot⟩ := root.mp rfl
          exact iff_of_true ⟨_, List.mem_cons_of_mem _ List.mem_cons_self, rfl, rfl⟩ ⟨_, hroot, rfl⟩
      | false =>
          refine iff_of_false ?_ ?_
          · rintro ⟨m, hm, hname, -⟩
            cases List.mem_singleton.mp hm
            exact absurd (show "load" = "parse" from hname) (by decide)
          · rintro ⟨name, hname, hentity⟩
            obtain ⟨rfl, rfl⟩ := Entity.element.inj hentity
            exact Bool.false_ne_true (root.mpr ⟨rfl, hname⟩)

end MadeFor

/-! ## All types -/

namespace Complete

/-- Every declared type declares something of the schema. -/
theorem exists_declares (h : Complete s names types) {t : DeclaredType} (ht : t ∈ types) :
    ∃ b, Declares s names b t := by
  obtain ⟨b, -, hb⟩ := exists_mem_zip_of_forall₂ h.declares.flip ht
  exact ⟨b, hb⟩

/-- The declared types have the names in use, in order. -/
theorem map_name (h : Complete s names types) : types.map (·.name) = names.used := by
  rw [h.register.used]
  refine List.forall₂_eq_eq_eq ▸ ?_
  rw [List.forall₂_map_left_iff, List.forall₂_map_right_iff]
  exact h.declares.flip.imp fun _ _ ht => ht.name

/-- No two declared types have the same name. -/
theorem nodup_names (h : Complete s names types) : (types.map (·.name)).Nodup := by
  rw [h.map_name]
  exact h.register.nodup

/-- Entities and declared types correspond one to one, in order. -/
theorem madeFor (h : Complete s names types) : List.Forall₂ (MadeFor s names) s.entities types := by
  have hnodup := h.wellFormed.nodup_entities
  rw [← h.register.entities] at hnodup ⊢
  refine List.forall₂_map_left_iff.mpr (forall₂_imp_of_mem h.declares fun b hb t ht => ?_)
  exact .intro (Names.binding?_of_mem hnodup hb) ht

/-- Two types that were made for one definition are the same. -/
theorem eq_of_madeFor (h : Complete s names types) {e : Entity} {t u : DeclaredType}
    (ht : t ∈ types) (hu : u ∈ types) (hte : MadeFor s names e t) (hue : MadeFor s names e u) :
    t = u := by
  refine List.inj_on_of_nodup_map h.nodup_names ht hu ?_
  exact Except.ok.inj (hte.named.symm.trans hue.named)

/-- The types in three groups, each in the order of the definitions. -/
theorem exists_groups (h : Complete s names types) :
    ∃ enums structs elements, types = enums ++ structs ++ elements ∧
      List.Forall₂ (fun d => MadeFor s names (.ofValueType d)) s.allValueTypes enums ∧
      List.Forall₂ (fun d => MadeFor s names (.ofStruct d)) s.allStructs structs ∧
      List.Forall₂ (fun d => MadeFor s names (.ofElement d)) s.allElements elements := by
  have hmade := h.madeFor
  rw [Schema.entities] at hmade
  obtain ⟨leaves, elements, rfl, hleaves, helements⟩ := forall₂_append_left hmade
  obtain ⟨enums, structs, rfl, henums, hstructs⟩ := forall₂_append_left hleaves
  rw [List.forall₂_map_left_iff] at henums hstructs helements
  exact ⟨enums, structs, elements, rfl, henums, hstructs, helements⟩

/-- No other type than that of the root element reads whole documents. -/
theorem readsContent_iff_eq (h : Complete s names types) {root : String} {t u : DeclaredType}
    (hroot : s.root = some root) (ht : t ∈ types) (hmade : MadeFor s names (.element [] root) t)
    (hu : u ∈ types) : u.ReadsContent ↔ u = t := by
  constructor
  · intro hreads
    obtain ⟨e, -, he⟩ := exists_mem_zip_of_forall₂ h.madeFor.flip hu
    obtain ⟨root', hroot', rfl⟩ := he.readsContent_iff.mp hreads
    cases hroot.symm.trans hroot'
    exact h.eq_of_madeFor hu ht he hmade
  · rintro rfl
    exact hmade.readsContent_iff.mpr ⟨root, hroot, rfl⟩

end Complete

end Code

namespace Schema

open Code

variable {s : Schema}

/-- The module that was made for a loaded schema declares every definition exactly once: an
enumeration for each value type, then a record for each struct, then a record for each element, each
under the name that the definition has. Scopes come from the outermost one to the inner ones. All
types have different names, and exactly the type of the root element reads whole documents. -/
theorem declares_each_once {text runtime code : String} (h : (parse text).result = .ok s)
    (hcode : (s.generate runtime).result = .ok code) :
    ∃ names enums structs elements,
      s.declarations.result = .ok (names, enums ++ structs ++ elements) ∧
      Module.code ⟨runtime, enums ++ structs ++ elements⟩ = .ok code ∧
      List.Forall₂ (EnumerationOf names) s.allValueTypes enums ∧
      List.Forall₂ (fun d => RecordOf names (.struct d.1 d.2.name) d.2.values.length)
        s.allStructs structs ∧
      List.Forall₂ (fun d => RecordOf names (.element d.1 d.2.name)
        (d.2.attributeEntries.length + d.2.elementEntries.length)) s.allElements elements ∧
      s.InScopeOrder s.allElements ∧
      ((enums ++ structs ++ elements).map (·.name)).Nodup ∧
      ∃ root t, s.root = some root.name ∧ (([], root), t) ∈ s.allElements.zip elements ∧
        ∀ u ∈ enums ++ structs ++ elements, u.ReadsContent ↔ u = t := by
  have hs := wellFormed_of_parse h
  obtain ⟨names, types, hdeclarations, hprinted⟩ := declarations_of_generate hcode
  have hcomplete := complete_of_declarations hs hdeclarations
  obtain ⟨enums, structs, elements, rfl, henums, hstructs, helements⟩ := hcomplete.exists_groups
  obtain ⟨root, hroot, hmem⟩ := hs.root_mem_allElements
  obtain ⟨t, hzip, hmade⟩ := exists_mem_zip_of_forall₂ helements hmem
  refine ⟨names, enums, structs, elements, hdeclarations, hprinted, ?_, ?_, ?_, s.inScopeOrder,
    hcomplete.nodup_names, root, t, hroot, hzip, fun u hu => ?_⟩
  · exact forall₂_imp_of_mem henums fun d hd t ht => ht.enumeration hs hd
  · exact forall₂_imp_of_mem hstructs fun d hd t ht => ht.struct hs hd
  · exact forall₂_imp_of_mem helements fun d hd t ht => ht.element hs hd
  · have ht := List.mem_append_right (enums ++ structs) (List.of_mem_zip hzip).2
    exact hcomplete.readsContent_iff_eq hroot ht hmade hu

/-- A schema in which one name belongs to three definitions, with a struct whose last value may be
missing. -/
def nestedText : String :=
  "Schema\nEnumType\nName I\nValues a A\nEnd\nStruct\nName P\nValue a Required I\n" ++
    "Value b Optional Int\nEnd\nElement\nName I\nDefinitions\nElement\nName I\n" ++
    "UnorderedContent\nEnd\nEnd\nEnd\nUnorderedContent\nAttribute p Required P\n" ++
    "Element I Repeated+\nEnd\nEnd\nEnd"

def nestedSchema : Schema where
  definitions := {
    valueTypes := [.enum "I" ["a", "A"]]
    structs := [⟨"P", [⟨"a", false, .valueType [] "I", false⟩,
      ⟨"b", true, .predefined .int, false⟩]⟩]
    elements := [{
      name := "I"
      elements := [{ name := "I", content := some (.unordered [] []) }]
      content := some (.unordered
        [.inline ⟨"p", some ⟨.struct [] "P", false, none⟩⟩ .required]
        [⟨["I"], "I", .repeatedPlus⟩]) }] }
  root := some "I"

theorem parse_nestedText : (parse nestedText).result = .ok nestedSchema :=
  parse_of_toList (Text.toList_append_eq (Text.toList_append_eq
    (Text.toList_append_eq String.toList_ofList String.toList_ofList)
    String.toList_ofList) String.toList_ofList) (by decide +kernel)

/-- A module is generated for the nested schema. -/
theorem exists_generate_nested :
    ∃ code, (nestedSchema.generate "sml_document").result = .ok code := by
  have hvalues : ∀ d ∈ nestedSchema.allStructs, d.2.values ≠ [] := by decide
  refine (wellFormed_of_parse parse_nestedText).exists_generate (by decide) (by decide) ?_ _
  rintro name ⟨e, -, a, -, d, hd, -, hempty, -⟩
  exact hvalues d hd hempty

theorem map_name_nested {names : TypeNames} {types : List DeclaredType}
    (h : nestedSchema.declarations.result = .ok (names, types)) :
    types.map (·.name) = ["IEnum", "PStruct", "IDocument", "IElement"] := by
  have hnames : nestedSchema.declarations.result.toOption.map (·.2.map (·.name)) =
      some ["IEnum", "PStruct", "IDocument", "IElement"] := by decide +kernel
  rw [h] at hnames
  exact Option.some.inj hnames

/-- Two elements of the same name, of which one is the root, and a struct and an enumeration. -/
theorem declares_each_once_nested :
    (parse nestedText).result = .ok nestedSchema ∧
      ∃ code, (nestedSchema.generate "sml_document").result = .ok code ∧
        ∃ names types t, nestedSchema.declarations.result = .ok (names, types) ∧
          types.map (·.name) = ["IEnum", "PStruct", "IDocument", "IElement"] ∧
          t ∈ types ∧ names.nameOf (.element [] "I") = .ok t.name ∧
          ∀ u ∈ types, u.ReadsContent ↔ u = t := by
  obtain ⟨code, hcode⟩ := exists_generate_nested
  obtain ⟨names, enums, structs, elements, hdeclarations, -, -, -, helements, -, -, root, t, hroot,
    hzip, hreads⟩ := declares_each_once parse_nestedText hcode
  obtain ⟨hnamed, -, -⟩ := (List.forall₂_iff_zip.mp helements).2 hzip
  have ht := List.mem_append_right (enums ++ structs) (List.of_mem_zip hzip).2
  rw [← Option.some.inj hroot] at hnamed
  exact ⟨parse_nestedText, code, hcode, names, _, t, hdeclarations,
    map_name_nested hdeclarations, ht, hnamed, hreads⟩

end Schema

end SmlSchema
