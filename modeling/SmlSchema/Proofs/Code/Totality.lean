import SmlSchema.Proofs.Code.Generation
import SmlSchema.Proofs.Code.Printing
import SmlSchema.Proofs.Document.Reading

/-! # The module of every loaded schema

Every type that the generator makes can be written, so making the module fails only where making its
types does.
-/

namespace SmlSchema

namespace Code

variable {s : Schema} {names : TypeNames}

/-! ## Generated parts have descriptions -/

/-- The type of a base can be printed. -/
theorem baseType_known {b : Base} {t : TypeDesc} (h : baseType names b = .ok t) : t.Known := by
  match b with
  | .value (.predefined p) =>
      cases h
      exact trivial
  | .value (.valueType scope name) =>
      obtain ⟨typeName, -, ht⟩ := bind_eq_ok.mp h
      cases ht
      exact trivial
  | .struct scope name =>
      obtain ⟨typeName, -, ht⟩ := bind_eq_ok.mp h
      cases ht
      exact trivial

theorem enumDefault_known {scope : Path} {name : String} {d : Default}
    (h : enumDefault names scope name = .ok d) : d.Known := by
  obtain ⟨typeName, -, h⟩ := bind_eq_ok.mp h
  obtain ⟨m, -, h⟩ := bind_eq_ok.mp h
  cases m with
  | enumeration first =>
      cases h
      exact trivial
  | struct d => cases h
  | element => cases h

/-- The default of a base can be printed. -/
theorem baseDefault_known {b : Base} {d : Default} (h : baseDefault names b = .ok d) : d.Known := by
  match b with
  | .value (.predefined p) =>
      cases h
      exact trivial
  | .value (.valueType scope name) => exact enumDefault_known h
  | .struct scope name =>
      obtain ⟨typeName, -, hd⟩ := bind_eq_ok.mp h
      cases hd
      exact trivial

theorem nullableIf_known (nullable : Bool) {t : TypeDesc} (h : t.Known) :
    (nullableIf nullable t).Known := by
  cases nullable with
  | true => exact h
  | false => exact h

/-- The type of an attribute can be printed. -/
theorem dataType_known {t : DataType} {d : TypeDesc} (h : dataType names t = .ok d) : d.Known := by
  obtain ⟨base, nullable, array⟩ := t
  obtain ⟨b, hb, h⟩ := bind_eq_ok.mp h
  have hitem := nullableIf_known nullable (baseType_known hb)
  cases array with
  | none =>
      cases h
      exact hitem
  | some a =>
      cases h
      exact nullableIf_known a.nullable hitem

/-- The default of an attribute can be printed. -/
theorem dataDefault_known {t : DataType} {d : Default} (h : dataDefault names t = .ok d) :
    d.Known := by
  unfold dataDefault at h
  split at h
  · cases h
    split <;> exact trivial
  · split at h
    · cases h
      exact trivial
    · exact baseDefault_known h

theorem itemReader_known {b : Base} {read : Expr} (h : itemReader names b = .ok read) :
    read.Known := by
  match b with
  | .value (.predefined p) =>
      cases h
      exact ⟨trivial, trivial, trivial⟩
  | .value (.valueType scope name) =>
      obtain ⟨typeName, -, hread⟩ := bind_eq_ok.mp h
      cases hread
      exact trivial
  | .struct scope name =>
      obtain ⟨typeName, -, hread⟩ := bind_eq_ok.mp h
      cases hread
      exact trivial

/-- The code that loads an attribute can be printed. -/
theorem loadValue_known {t : DataType} {load : Expr} (h : loadValue names t = .ok load) :
    load.Known := by
  obtain ⟨base, nullable, array⟩ := t
  obtain ⟨⟨least, greatest⟩, -, h⟩ := bind_eq_ok.mp h
  obtain ⟨read, hread, h⟩ := bind_eq_ok.mp h
  have hknown := itemReader_known hread
  cases array with
  | none =>
      cases h
      exact ⟨trivial, hknown, trivial, trivial, trivial, trivial⟩
  | some a =>
      cases h
      refine ⟨trivial, hknown, trivial, ?_, trivial, trivial, trivial, trivial⟩
      cases a.range.max with
      | none => exact trivial
      | some m => exact trivial

/-- The code that loads a value of a struct can be printed. -/
theorem loadStructValue_known {position : Nat} {v : StructValue} {load : Expr}
    (h : loadStructValue names position v = .ok load) : load.Known := by
  unfold loadStructValue at h
  split at h
  · cases h
    simp [invoke, text, indexPlus, count, flag, attributeVar, Expr.Known, Expr.KnownAll,
      Literal.Known]
  · obtain ⟨typeName, -, h⟩ := bind_eq_ok.mp h
    cases h
    simp [invoke, indexPlus, count, flag, attributeVar, Expr.Known, Expr.KnownAll, Literal.Known]

/-- The field and its statements have descriptions. -/
structure FieldCode.Known (c : FieldCode) : Prop where
  field : c.field.Known
  statements : Statement.KnownAll c.statements

/-- The field of a struct's value can be printed with its code. -/
theorem structField_known {fields next : MemberNames} {v : StructValue × Nat} {c : FieldCode}
    (h : structField names fields v = .ok (next, c)) : c.Known := by
  obtain ⟨name, type, default, load, htype, hdefault, hload, hfield, hstatements⟩ :=
    structField_eq_ok h
  have hknown := loadStructValue_known hload
  refine ⟨?_, ?_⟩
  · rw [hfield]
    refine ⟨nullableIf_known _ (baseType_known htype), ?_⟩
    dsimp only
    split
    · exact trivial
    · exact baseDefault_known hdefault
  · rw [hstatements, structExtraction]
    split
    · exact ⟨⟨⟨trivial, trivial, trivial⟩, ⟨trivial, hknown⟩, trivial⟩, trivial⟩
    · exact ⟨⟨trivial, hknown⟩, trivial⟩

theorem fieldType_known (o : Occurrence) {t : TypeDesc} (h : t.Known) : (fieldType o t).Known := by
  unfold fieldType
  split
  · exact h
  · split
    · split <;> exact h
    · exact h

theorem fieldDefault_known (o : Occurrence) {d : Default} (h : d.Known) :
    (fieldDefault o d).Known := by
  unfold fieldDefault
  split
  · exact trivial
  · split
    · exact trivial
    · exact h

/-- The code of an entry can be printed if the code of a single node can. -/
theorem extraction_known (o : Occurrence) (kind : NodeKind) (holder nodeName fieldName : String)
    {load : Expr} (h : load.Known) :
    Statement.KnownAll (extraction o kind holder nodeName fieldName load) := by
  unfold extraction
  dsimp only
  split
  · exact ⟨⟨trivial, trivial, trivial, trivial⟩, ⟨trivial, h⟩, trivial⟩
  · split
    · exact ⟨⟨trivial, trivial, trivial, trivial⟩, ⟨trivial, ⟨trivial, h⟩, trivial⟩, trivial⟩
    · exact ⟨⟨⟨trivial, trivial, trivial⟩, ⟨trivial, h⟩, trivial⟩, trivial⟩

/-- The field of an attribute can be printed with its code. -/
theorem attributeField_known {fields next : MemberNames} {a : AttributeEntry} {c : FieldCode}
    (h : attributeField s names fields a = .ok (next, c)) : c.Known := by
  obtain ⟨t, name, type, default, load, -, -, htype, hdefault, hload, hfield, hstatements⟩ :=
    attributeField_eq_ok h
  refine ⟨?_, ?_⟩
  · rw [hfield]
    exact ⟨fieldType_known _ (dataType_known htype),
      fieldDefault_known _ (dataDefault_known hdefault)⟩
  · rw [hstatements]
    exact extraction_known _ _ _ _ _ (loadValue_known hload)

/-- The field of a child element can be printed with its code. -/
theorem elementField_known {fields next : MemberNames} {x : ElementEntry} {c : FieldCode}
    (h : elementField names fields x = .ok (next, c)) : c.Known := by
  obtain ⟨child, name, -, -, hfield, hstatements⟩ := elementField_eq_ok h
  refine ⟨?_, ?_⟩
  · rw [hfield]
    exact ⟨fieldType_known _ trivial, fieldDefault_known _ trivial⟩
  · rw [hstatements]
    exact extraction_known _ _ _ _ _ ⟨trivial, trivial, trivial⟩

/-- If each field can be printed, all that are gathered can. -/
theorem gather_known {α : Type}
    {make : MemberNames → α → Except Error (MemberNames × FieldCode)} {as : List α}
    {fields last : MemberNames} {cs : List FieldCode}
    (hmake : ∀ {before after : MemberNames} {a : α} {c : FieldCode},
      make before a = .ok (after, c) → c.Known)
    (h : gather make fields as = .ok (last, cs)) : ∀ c ∈ cs, c.Known := by
  refine forall_of_forall₂ (gather_eq_ok h) ?_
  rintro a c ⟨before, after, hc⟩
  exact hmake hc

theorem readerParameters_known : ∀ p ∈ readerParameters, p.Known := by
  simp only [readerParameters, List.forall_mem_cons, List.not_mem_nil, false_implies, implies_true,
    and_true]
  refine ⟨⟨trivial, ?_⟩, ⟨trivial, ?_⟩, ⟨trivial, ?_⟩⟩
  · rintro e ⟨⟩
  · rintro e ⟨⟩
    exact trivial
  · rintro e ⟨⟩
    exact trivial

/-- Every enumeration can be printed. -/
theorem enumType_known (name : String) (labels members : List String) :
    (enumType name labels members).Known := by
  refine ⟨fun v hv => ?_, fun m hm => ?_⟩
  · rw [← List.map_uncurry_zip_eq_zipWith] at hv
    obtain ⟨⟨member, label⟩, -, rfl⟩ := List.mem_map.mp hv
    exact trivial
  · rw [List.mem_singleton.mp hm]
    refine ⟨readerParameters_known, trivial, _, rfl, ?_⟩
    have hlabels := Literal.knownAll_strings labels
    exact ⟨⟨trivial, trivial, hlabels, trivial, trivial, trivial⟩, ⟨trivial, trivial, trivial⟩,
      ⟨trivial, trivial⟩, trivial⟩

/-- A struct can be printed if its fields can. -/
theorem structType_known (name : String) {cs : List FieldCode} (h : ∀ c ∈ cs, c.Known) :
    (structType name cs).Known := by
  refine ⟨fun f hf => ?_, fun m hm => ?_⟩
  · obtain ⟨c, hc, rfl⟩ := List.mem_map.mp hf
    exact (h c hc).field
  · rw [List.mem_singleton.mp hm]
    refine ⟨readerParameters_known, trivial, _, rfl, ?_⟩
    rw [structBody, Statement.knownAll_append, Statement.knownAll_append]
    refine ⟨⟨?_, Statement.knownAll_flatMap fun c hc => (h c hc).statements⟩, trivial, trivial⟩
    exact ⟨⟨⟨trivial, trivial, trivial, trivial⟩, trivial, trivial⟩, ⟨trivial, trivial, trivial⟩,
      trivial⟩

theorem nameCheck_known (kind : NodeKind) (names : List String) : (nameCheck kind names).Known := by
  cases names with
  | nil => exact ⟨trivial, trivial⟩
  | cons name names => exact ⟨trivial, Literal.knownAll_strings (name :: names), trivial⟩

/-- An element can be printed if its fields can. -/
theorem recordType_known (typeName name : String) (isRoot : Bool)
    (attributes : List AttributeEntry) (elements : List ElementEntry) {cs : List FieldCode}
    (h : ∀ c ∈ cs, c.Known) : (recordType typeName name isRoot attributes elements cs).Known := by
  refine ⟨fun f hf => ?_, fun m hm => ?_⟩
  · obtain ⟨c, hc, rfl⟩ := List.mem_map.mp hf
    exact (h c hc).field
  · rcases List.mem_cons.mp hm with rfl | hm
    · refine ⟨fun p hp => ?_, trivial, _, rfl, ?_⟩
      · rw [List.mem_singleton.mp hp]
        exact ⟨trivial, nofun⟩
      · rw [elementBody, Statement.knownAll_append, Statement.knownAll_append]
        refine ⟨⟨⟨?_, ?_⟩, Statement.knownAll_flatMap fun c hc => (h c hc).statements⟩, trivial,
          trivial⟩
        · exact ⟨trivial, trivial, trivial⟩
        · exact ⟨nameCheck_known _ _, nameCheck_known _ _, ⟨trivial, trivial, trivial⟩, trivial⟩
    · cases isRoot with
      | false => cases hm
      | true =>
          rw [List.mem_singleton.mp hm]
          refine ⟨fun p hp => ?_, trivial, _, rfl, ?_⟩
          · rw [List.mem_singleton.mp hp]
            exact ⟨trivial, nofun⟩
          · exact ⟨⟨trivial, trivial, trivial, trivial⟩, ⟨trivial, trivial, trivial⟩, trivial⟩

/-- Whatever is declared can be printed. -/
theorem Declares.known {b : NameBinding Entity Made} {t : DeclaredType} (h : Declares s names b t) :
    t.Known := by
  cases h with
  | enumeration => exact enumType_known _ _ _
  | struct _ _ hgather _ => exact structType_known _ (gather_known structField_known hgather)
  | element _ _ hattributes helements _ =>
      refine recordType_known _ _ _ _ _ fun c hc => ?_
      rcases List.mem_append.mp hc with hc | hc
      · exact gather_known attributeField_known hattributes c hc
      · exact gather_known elementField_known helements c hc

end Code

namespace Schema

variable {s : Schema}

/-- The module of a well formed schema is made, or the generator meets an obstacle. -/
theorem WellFormed.generate_ends (h : s.WellFormed) (runtime : String) :
    Ends (fun e => ∃ cause, e = .failed cause ∧ s.Obstacle cause) (fun _ => True)
      (s.generate runtime).result := by
  have hends := Code.declarations_ends h
  unfold generate
  dsimp only
  cases hresult : s.declarations.result with
  | error e =>
      rw [hresult] at hends
      -- an obstacle is never a part that a type does not take
      cases hends with
      | emptyName h => exact ⟨_, rfl, .emptyName h⟩
      | exhausted name h => exact ⟨_, rfl, .exhausted name h⟩
      | emptyStruct name h => exact ⟨_, rfl, .emptyStruct name h⟩
  | ok g =>
      rw [hresult] at hends
      obtain ⟨-, bs, -, -, htypes⟩ := hends
      obtain ⟨code, hcode⟩ := Code.Module.code_eq_ok (m := ⟨runtime, g.2⟩)
        (forall_of_forall₂ htypes fun _ _ ht => ht.known)
      exact .of_eq_ok (mapError_eq_ok.mpr hcode) trivial

/-- Where there is no obstacle, the module is made. -/
theorem WellFormed.exists_generate (h : s.WellFormed) (hname : ¬ s.HasEmptyName)
    (hcrowd : ¬ s.IsCrowded) (hstruct : ∀ name, ¬ s.ReadsEmptyStruct name) (runtime : String) :
    ∃ code, (s.generate runtime).result = .ok code := by
  have hends := h.generate_ends runtime
  cases hresult : (s.generate runtime).result with
  | ok code => exact ⟨code, rfl⟩
  | error e =>
      rw [hresult] at hends
      obtain ⟨cause, -, hcause⟩ := hends
      cases hcause with
      | emptyName h => exact absurd h hname
      | exhausted _ h => exact absurd h hcrowd
      | emptyStruct name h => exact absurd h (hstruct name)

/-- Nothing keeps a module from being generated for the tree schema. -/
theorem treeSchema_unobstructed :
    ¬ treeSchema.HasEmptyName ∧ ¬ treeSchema.IsCrowded ∧
      ∀ name, ¬ treeSchema.ReadsEmptyStruct name := by
  have hvalues : ∀ d ∈ treeSchema.allStructs, d.2.values ≠ [] := by decide
  refine ⟨by decide, by decide, ?_⟩
  rintro name ⟨e, -, a, -, d, hd, -, hempty, -⟩
  exact hvalues d hd hempty

/-- The generator is total on loaded schemas: it gives the text of a module, or it fails because a
name that it needs is empty or because all names made from one are in use, or because an attribute
has a struct without values. Where none of this is the case it gives the text. -/
theorem generate_of_parse {text : String} (h : (parse text).result = .ok s) (runtime : String) :
    ((∃ code, (s.generate runtime).result = .ok code) ∨
        ∃ cause, (s.generate runtime).result = .error (.failed cause) ∧ s.Obstacle cause) ∧
      (¬ s.HasEmptyName → ¬ s.IsCrowded → (∀ name, ¬ s.ReadsEmptyStruct name) →
        ∃ code, (s.generate runtime).result = .ok code) := by
  have hs := wellFormed_of_parse h
  refine ⟨?_, fun hname hcrowd hstruct => hs.exists_generate hname hcrowd hstruct runtime⟩
  have hends := hs.generate_ends runtime
  cases hresult : (s.generate runtime).result with
  | ok code => exact .inl ⟨code, rfl⟩
  | error e =>
      rw [hresult] at hends
      obtain ⟨cause, rfl, hcause⟩ := hends
      exact .inr ⟨cause, rfl, hcause⟩

/-- A module is generated for a schema with an element inside itself. -/
theorem generate_of_parse_tree :
    (parse treeText).result = .ok treeSchema ∧ ¬ treeSchema.HasEmptyName ∧
      ¬ treeSchema.IsCrowded ∧ (∀ name, ¬ treeSchema.ReadsEmptyStruct name) ∧
      ∃ code, (treeSchema.generate "sml_document").result = .ok code := by
  obtain ⟨hname, hcrowd, hstruct⟩ := treeSchema_unobstructed
  exact ⟨parse_treeText, hname, hcrowd, hstruct,
    (generate_of_parse parse_treeText "sml_document").2 hname hcrowd hstruct⟩

end Schema

end SmlSchema
