import SmlSchema.Proofs.Code.Declarations

/-! # Well typed modules

The parts of a field are made one by one: its name, its type, its default and the statements that
fill it. They fit together, and every type that is named in a module is declared there.
-/

namespace SmlSchema

namespace Code

/-! ## References -/

/-- The declared types that a description names. -/
@[simp] def TypeDesc.typeNames : TypeDesc → List String
  | .named name => [name]
  | .nullable t => t.typeNames
  | .list t => t.typeNames
  | .scalar _ | .runtime _ | .foreign _ => []

mutual

/-- The declared types that an expression refers to. -/
@[simp] def Expr.typeNames : Expr → List String
  | .typeRef name => [name]
  | .attr e _ => e.typeNames
  | .call f args => f.typeNames ++ Expr.typeNamesOfAll args
  | .add a b => a.typeNames ++ b.typeNames
  | .memberAt e i => e.typeNames ++ i.typeNames
  | .isPresent e => e.typeNames
  | .isAbsent e => e.typeNames
  | .greater a b => a.typeNames ++ b.typeNames
  | .both a b => a.typeNames ++ b.typeNames
  | .var _ | .selfType | .runtime _ | .literal _ | .foreign _ => []
termination_by structural e => e

def Expr.typeNamesOfAll : List Expr → List String
  | [] => []
  | e :: es => e.typeNames ++ Expr.typeNamesOfAll es
termination_by structural es => es

end

@[simp] def Step.typeNames : Step → List String
  | .assign target e => target.typeNames ++ e.typeNames
  | .append target e => target.typeNames ++ e.typeNames
  | .giveBack e => e.typeNames
  | .evaluate e => e.typeNames
  | .foreign _ => []

@[simp] def Header.typeNames : Header → List String
  | .ifTrue e => e.typeNames
  | .forEach _ e => e.typeNames
  | .foreign _ => []

/-- The field of the result that an expression stands for. -/
@[simp] def Expr.resultField : Expr → List String
  | .attr (.var x) name => if x = "result" then [name] else []
  | _ => []

/-- The field of the result that a statement writes to. -/
@[simp] def Step.resultField : Step → List String
  | .assign target _ => target.resultField
  | .append target _ => target.resultField
  | .giveBack _ | .evaluate _ | .foreign _ => []

mutual

@[simp] def Statement.typeNames : Statement → List String
  | .step s => s.typeNames
  | .block h ss => h.typeNames ++ Statement.typeNamesOfAll ss
termination_by structural s => s

def Statement.typeNamesOfAll : List Statement → List String
  | [] => []
  | s :: ss => s.typeNames ++ Statement.typeNamesOfAll ss
termination_by structural ss => ss

end

mutual

/-- The fields of the result that a statement writes to. -/
@[simp] def Statement.resultFields : Statement → List String
  | .step s => s.resultField
  | .block _ ss => Statement.resultFieldsOfAll ss
termination_by structural s => s

def Statement.resultFieldsOfAll : List Statement → List String
  | [] => []
  | s :: ss => s.resultFields ++ Statement.resultFieldsOfAll ss
termination_by structural ss => ss

end

def Parameter.typeNames (p : Parameter) : List String :=
  p.type.typeNames ++ (p.default.map (·.typeNames)).getD []

def Signature.typeNames (g : Signature) : List String :=
  g.parameters.flatMap (·.typeNames) ++ g.returns.typeNames

/-! ## Types -/

/-- An enumeration has no fields. -/
def Shape.fields : Shape → List Field
  | .enumeration _ => []
  | .record fields => fields

/-- The default is a value of the type. An enumeration is looked up when the record is declared, so
it is one of those declared earlier. -/
inductive Default.Inhabits (types earlier : List DeclaredType) : Default → TypeDesc → Prop where
  | zero (p : Predefined) : Inhabits types earlier (.zero p) (.scalar p)
  | none (t : TypeDesc) : Inhabits types earlier .none (.nullable t)
  | emptyList (t : TypeDesc) : Inhabits types earlier .emptyList (.list t)
  | newInstance {t : DeclaredType} {fields : List Field} (mem : t ∈ types)
      (shape : t.shape = .record fields) :
      Inhabits types earlier (.newInstance t.name) (.named t.name)
  | member {t : DeclaredType} {variants : List Variant} {v : Variant} (mem : t ∈ earlier)
      (shape : t.shape = .enumeration variants) (variant : v ∈ variants) :
      Inhabits types earlier (.member t.name v.name) (.named t.name)

/-- The operation refers to declared types, and it writes to fields of the type itself. -/
structure Method.WellTyped (types : List DeclaredType) (fields : List Field) (m : Method) :
    Prop where
  signature : m.signature.typeNames ⊆ types.map (·.name)
  body : ∃ ss, m.body.finish? = some ss ∧ Statement.typeNamesOfAll ss ⊆ types.map (·.name) ∧
    Statement.resultFieldsOfAll ss ⊆ fields.map (·.name)

structure DeclaredType.WellTyped (types earlier : List DeclaredType) (t : DeclaredType) :
    Prop where
  nodup : (t.shape.fields.map (·.name)).Nodup
  defaults : ∀ f ∈ t.shape.fields, f.default.Inhabits types earlier f.type
  typeNames : ∀ f ∈ t.shape.fields, f.type.typeNames ⊆ types.map (·.name)
  methods : ∀ m ∈ t.methods, m.WellTyped types t.shape.fields

/-! ## What parts of code refer to -/

/-- The types that several expressions name are those of each in turn. -/
@[simp] theorem Expr.typeNamesOfAll_eq (es : List Expr) :
    typeNamesOfAll es = es.flatMap (·.typeNames) := by
  induction es with
  | nil => rfl
  | cons e es ih => rw [typeNamesOfAll, ih, List.flatMap_cons]

/-- The types that several statements name are those of each in turn. -/
@[simp] theorem Statement.typeNamesOfAll_eq (ss : List Statement) :
    typeNamesOfAll ss = ss.flatMap (·.typeNames) := by
  induction ss with
  | nil => rfl
  | cons s ss ih => rw [typeNamesOfAll, ih, List.flatMap_cons]

/-- The fields that several statements set are those of each in turn. -/
@[simp] theorem Statement.resultFieldsOfAll_eq (ss : List Statement) :
    resultFieldsOfAll ss = ss.flatMap (·.resultFields) := by
  induction ss with
  | nil => rfl
  | cons s ss ih => rw [resultFieldsOfAll, ih, List.flatMap_cons]

@[simp] theorem typeNames_invoke (target : Expr) (operation : String) (arguments : List Expr) :
    (invoke target operation arguments).typeNames =
      target.typeNames ++ arguments.flatMap (·.typeNames) := by
  rw [invoke, Expr.typeNames, Expr.typeNames, Expr.typeNamesOfAll_eq]

@[simp] theorem typeNames_text (s : String) : (text s).typeNames = [] := rfl

@[simp] theorem typeNames_flag (b : Bool) : (flag b).typeNames = [] := rfl

@[simp] theorem typeNames_count (n : Nat) : (count n).typeNames = [] := rfl

@[simp] theorem typeNames_indexPlus (n : Nat) : (indexPlus n).typeNames = [] := rfl

@[simp] theorem typeNames_attributeVar : attributeVar.typeNames = [] := rfl

@[simp] theorem typeNames_elementVar : elementVar.typeNames = [] := rfl

@[simp] theorem typeNames_resultVar : resultVar.typeNames = [] := rfl

@[simp] theorem typeNames_nameCheck (kind : NodeKind) (names : List String) :
    (nameCheck kind names).typeNames = [] := by
  cases names <;> simp [nameCheck, checkNames]

@[simp] theorem resultFields_nameCheck (kind : NodeKind) (names : List String) :
    (nameCheck kind names).resultFields = [] := rfl

/-- The code of a struct's value names the types that its load names. -/
theorem typeNames_structExtraction (v : StructValue) (position : Nat) (name : String)
    (load : Expr) :
    Statement.typeNamesOfAll (structExtraction v position name load) = load.typeNames := by
  unfold structExtraction
  dsimp only
  split <;> simp

/-- The code of a struct's value sets its field only. -/
theorem resultFields_structExtraction (v : StructValue) (position : Nat) (name : String)
    (load : Expr) :
    Statement.resultFieldsOfAll (structExtraction v position name load) = [name] := by
  unfold structExtraction
  dsimp only
  split <;> simp [resultVar]

/-- The code of an entry names the types that its load names. -/
theorem typeNames_extraction (o : Occurrence) (kind : NodeKind) (holder nodeName fieldName : String)
    (load : Expr) :
    Statement.typeNamesOfAll (extraction o kind holder nodeName fieldName load) =
      load.typeNames := by
  unfold extraction
  dsimp only
  split
  · simp
  · split <;> simp

/-- The code of an entry sets its field only. -/
theorem resultFields_extraction (o : Occurrence) (kind : NodeKind)
    (holder nodeName fieldName : String) (load : Expr) :
    Statement.resultFieldsOfAll (extraction o kind holder nodeName fieldName load) =
      [fieldName] := by
  unfold extraction
  dsimp only
  split
  · simp [resultVar]
  · split <;> simp [resultVar]

/-- The code of a struct names the types that its fields name. -/
theorem typeNames_structBody (cs : List FieldCode) :
    Statement.typeNamesOfAll (structBody cs) =
      cs.flatMap fun c => Statement.typeNamesOfAll c.statements := by
  simp [structBody, List.flatMap_assoc]

/-- The code of a struct sets the fields of its values. -/
theorem resultFields_structBody (cs : List FieldCode) :
    Statement.resultFieldsOfAll (structBody cs) =
      cs.flatMap fun c => Statement.resultFieldsOfAll c.statements := by
  simp [structBody, List.flatMap_assoc, resultVar]

/-- The code of an element names the types that its fields name. -/
theorem typeNames_elementBody (name : String) (attributes elements : List String)
    (cs : List FieldCode) :
    Statement.typeNamesOfAll (elementBody name attributes elements cs) =
      cs.flatMap fun c => Statement.typeNamesOfAll c.statements := by
  simp [elementBody, List.flatMap_assoc]

/-- The code of an element sets the fields of its entries. -/
theorem resultFields_elementBody (name : String) (attributes elements : List String)
    (cs : List FieldCode) :
    Statement.resultFieldsOfAll (elementBody name attributes elements cs) =
      cs.flatMap fun c => Statement.resultFieldsOfAll c.statements := by
  simp [elementBody, List.flatMap_assoc, resultVar]

theorem typeNames_readerParameters : readerParameters.flatMap (·.typeNames) = [] := rfl

/-! ## Defaults -/

namespace Default.Inhabits

variable {types earlier : List DeclaredType} {d : Default} {t : TypeDesc}

/-- A default stays in its type when both may be missing. -/
theorem nullableIf (h : d.Inhabits types earlier t) (nullable : Bool) :
    Inhabits types earlier (if nullable then .none else d) (Code.nullableIf nullable t) := by
  cases nullable with
  | true => exact .none t
  | false => exact h

theorem optional (t : TypeDesc) : Inhabits types earlier .none (fieldType .optional t) := by
  cases t <;> exact .none _

/-- The default and the type of a field change together with the number of occurrences. -/
theorem field (h : d.Inhabits types earlier t) {o : Occurrence} (ho : o.HasWord) :
    (fieldDefault o d).Inhabits types earlier (fieldType o t) := by
  rcases Occurrence.hasWord_iff.mp ho with rfl | rfl | rfl | rfl
  · exact h
  · exact optional t
  · exact .emptyList t
  · exact .emptyList t

end Default.Inhabits

theorem typeNames_nullableIf (nullable : Bool) (t : TypeDesc) :
    (nullableIf nullable t).typeNames = t.typeNames := by
  cases nullable <;> rfl

theorem typeNames_fieldType (o : Occurrence) (t : TypeDesc) :
    (fieldType o t).typeNames = t.typeNames := by
  unfold fieldType
  split
  · rfl
  · split
    · split <;> rfl
    · rfl

/-- The enumerations of the module are among the types. -/
def HoldsEnumerations (types earlier : List DeclaredType) : Prop :=
  ∀ t ∈ types, ∀ variants, t.shape = .enumeration variants → t ∈ earlier

section

variable {s : Schema} {names known : TypeNames} {types earlier : List DeclaredType}

/-- A name that belongs to an entity is the name of a declared type. -/
theorem Complete.mem_names (h : Complete s names types) (hkeeps : known.Keeps names) {e : Entity}
    {name : String} (hname : known.nameOf e = .ok name) : name ∈ types.map (·.name) := by
  obtain ⟨b, hb, rfl⟩ := exists_binding?_of_keeps hkeeps hname
  rw [h.map_name, h.register.used]
  exact List.mem_map.mpr ⟨b, (Names.mem_of_binding? hb).1, rfl⟩

/-- The type of a base names declared types only. -/
theorem Complete.typeNames_base (h : Complete s names types) (hkeeps : known.Keeps names) {b : Base}
    {t : TypeDesc} (ht : baseType known b = .ok t) : t.typeNames ⊆ types.map (·.name) := by
  match b with
  | .value (.predefined p) =>
      cases ht
      exact List.nil_subset _
  | .value (.valueType scope name) =>
      simp only [baseType, bind_eq_ok, lift_name_eq_ok] at ht
      obtain ⟨typeName, hname, ht⟩ := ht
      cases ht
      exact List.cons_subset.mpr ⟨h.mem_names hkeeps hname, List.nil_subset _⟩
  | .struct scope name =>
      simp only [baseType, bind_eq_ok, lift_name_eq_ok] at ht
      obtain ⟨typeName, hname, ht⟩ := ht
      cases ht
      exact List.cons_subset.mpr ⟨h.mem_names hkeeps hname, List.nil_subset _⟩

/-- The first member of an enumeration is one of its variants. -/
theorem Complete.inhabits_enum (h : Complete s names types) (hkeeps : known.Keeps names)
    (hearlier : HoldsEnumerations types earlier) {scope : Path} {name typeName : String}
    {d : Default} (hname : known.nameOf (.valueType scope name) = .ok typeName)
    (hd : enumDefault known scope name = .ok d) :
    d.Inhabits types earlier (.named typeName) := by
  obtain ⟨b, hb, rfl⟩ := Names.nameOf_eq_ok.mp hname
  obtain ⟨labels, members, -, hlabels, hlength, -, hconstruct, ht⟩ :=
    h.enumeration (hkeeps.binding? hb)
  have hmade := Names.constructOf_eq_ok.mpr ⟨b, hb, hconstruct⟩
  rw [enumDefault, lift_name_eq_ok.mpr hname, ok_bind, lift_name_eq_ok.mpr hmade] at hd
  cases hd
  have hmem := List.mem_of_find?_eq_some (found_eq_ok.mp ht)
  -- there is a member for each label, and a first label
  cases labels with
  | nil => exact absurd rfl hlabels
  | cons l labels =>
      cases members with
      | nil => cases hlength
      | cons m members =>
          exact .member (t := enumType b.name (l :: labels) (m :: members))
            (v := ⟨m, .string l⟩) (hearlier _ hmem _ rfl) rfl List.mem_cons_self

/-- The default of a base belongs to its type. -/
theorem Complete.inhabits_base (h : Complete s names types) (hkeeps : known.Keeps names)
    (hearlier : HoldsEnumerations types earlier) {b : Base} {t : TypeDesc} {d : Default}
    (ht : baseType known b = .ok t) (hd : baseDefault known b = .ok d) :
    d.Inhabits types earlier t := by
  match b with
  | .value (.predefined p) =>
      cases ht
      cases hd
      exact .zero p
  | .value (.valueType scope name) =>
      simp only [baseType, bind_eq_ok, lift_name_eq_ok] at ht
      obtain ⟨typeName, hname, ht⟩ := ht
      cases ht
      exact h.inhabits_enum hkeeps hearlier hname hd
  | .struct scope name =>
      simp only [baseType, baseDefault, bind_eq_ok, lift_name_eq_ok] at ht hd
      obtain ⟨typeName, hname, ht⟩ := ht
      obtain ⟨typeName', hname', hd⟩ := hd
      cases hname.symm.trans hname'
      cases ht
      cases hd
      obtain ⟨b, hb, rfl⟩ := exists_binding?_of_keeps hkeeps hname
      obtain ⟨_, cs, -, -, -, -, hfound⟩ := h.struct hb
      have hmem := List.mem_of_find?_eq_some (found_eq_ok.mp hfound)
      exact .newInstance (t := structType b.name cs) hmem rfl

/-- The default of a data type belongs to its type, which names declared types only. -/
theorem Complete.inhabits_data (h : Complete s names types) (hkeeps : known.Keeps names)
    (hearlier : HoldsEnumerations types earlier) {t : DataType} {type : TypeDesc} {d : Default}
    (ht : dataType known t = .ok type) (hd : dataDefault known t = .ok d) :
    d.Inhabits types earlier type ∧ type.typeNames ⊆ types.map (·.name) := by
  obtain ⟨base, nullable, array⟩ := t
  obtain ⟨b, hb, ht⟩ := bind_eq_ok.mp ht
  have hnames := h.typeNames_base hkeeps hb
  cases array with
  | some a =>
      cases ht
      cases hd
      refine ⟨.nullableIf (.emptyList _) _, ?_⟩
      rwa [typeNames_nullableIf, TypeDesc.typeNames, typeNames_nullableIf]
  | none =>
      cases ht
      refine ⟨?_, by rwa [typeNames_nullableIf]⟩
      cases nullable with
      | true =>
          cases hd
          exact .none b
      | false => exact h.inhabits_base hkeeps hearlier hb hd

/-! ## Fields -/

/-- The parts of the field fit together. -/
structure FieldCode.WellTyped (types earlier : List DeclaredType) (c : FieldCode) : Prop where
  default : c.field.default.Inhabits types earlier c.field.type
  typeNames : c.field.type.typeNames ⊆ types.map (·.name)
  statements : Statement.typeNamesOfAll c.statements ⊆ types.map (·.name)
  target : Statement.resultFieldsOfAll c.statements = [c.field.name]

variable {before after : MemberNames} {c : FieldCode}

/-- Loading a value of a struct names declared types only. -/
theorem Complete.typeNames_loadStructValue (h : Complete s names types)
    (hkeeps : known.Keeps names) {position : Nat} {v : StructValue} {load : Expr}
    (hload : loadStructValue known position v = .ok load) :
    load.typeNames ⊆ types.map (·.name) := by
  unfold loadStructValue at hload
  split at hload
  · cases hload
    simp
  · simp only [bind_eq_ok, lift_name_eq_ok] at hload
    obtain ⟨typeName, hname, hload⟩ := hload
    cases hload
    simpa using h.mem_names hkeeps hname

/-- The field of a struct's value is well typed. -/
theorem Complete.wellTyped_structField (h : Complete s names types) (hkeeps : known.Keeps names)
    (hearlier : HoldsEnumerations types earlier) {v : StructValue × Nat}
    (hc : structField known before v = .ok (after, c)) : c.WellTyped types earlier := by
  obtain ⟨name, type, default, load, htype, hdefault, hload, hfield, hstatements⟩ :=
    structField_eq_ok hc
  have hinhabits := h.inhabits_base hkeeps hearlier htype hdefault
  refine ⟨?_, ?_, ?_, ?_⟩
  · rw [hfield]
    exact hinhabits.nullableIf _
  · rw [hfield, typeNames_nullableIf]
    exact h.typeNames_base hkeeps htype
  · rw [hstatements, typeNames_structExtraction]
    exact h.typeNames_loadStructValue hkeeps hload
  · rw [hstatements, hfield, resultFields_structExtraction]

theorem Complete.typeNames_itemReader (h : Complete s names types) (hkeeps : known.Keeps names)
    {b : Base} {read : Expr} (hread : itemReader known b = .ok read) :
    read.typeNames ⊆ types.map (·.name) := by
  match b with
  | .value (.predefined p) =>
      cases hread
      simp
  | .value (.valueType scope name) =>
      simp only [itemReader, bind_eq_ok, lift_name_eq_ok] at hread
      obtain ⟨typeName, hname, hread⟩ := hread
      cases hread
      simpa using h.mem_names hkeeps hname
  | .struct scope name =>
      simp only [itemReader, bind_eq_ok, lift_name_eq_ok] at hread
      obtain ⟨typeName, hname, hread⟩ := hread
      cases hread
      simpa using h.mem_names hkeeps hname

/-- Loading an attribute names declared types only. -/
theorem Complete.typeNames_loadValue (h : Complete s names types) (hkeeps : known.Keeps names)
    {t : DataType} {load : Expr} (hload : loadValue known t = .ok load) :
    load.typeNames ⊆ types.map (·.name) := by
  obtain ⟨base, nullable, array⟩ := t
  obtain ⟨⟨least, greatest⟩, -, hload⟩ := bind_eq_ok.mp hload
  obtain ⟨read, hread, hload⟩ := bind_eq_ok.mp hload
  have hnames := h.typeNames_itemReader hkeeps hread
  cases array with
  | none =>
      cases hload
      simpa using hnames
  | some a =>
      cases hload
      simpa using hnames

/-- The field of an attribute is well typed. -/
theorem Complete.wellTyped_attributeField (h : Complete s names types) (hkeeps : known.Keeps names)
    (hearlier : HoldsEnumerations types earlier) {x : AttributeEntry}
    (hc : attributeField s known before x = .ok (after, c)) : c.WellTyped types earlier := by
  obtain ⟨t, name, type, default, load, hword, -, htype, hdefault, hload, hfield, hstatements⟩ :=
    attributeField_eq_ok hc
  obtain ⟨hinhabits, hnames⟩ := h.inhabits_data hkeeps hearlier htype hdefault
  refine ⟨?_, ?_, ?_, ?_⟩
  · rw [hfield]
    exact hinhabits.field hword
  · rwa [hfield, typeNames_fieldType]
  · rw [hstatements, typeNames_extraction]
    exact h.typeNames_loadValue hkeeps hload
  · rw [hstatements, hfield, resultFields_extraction]

/-- The field of a child element is well typed. -/
theorem Complete.wellTyped_elementField (h : Complete s names types) (hkeeps : known.Keeps names)
    {x : ElementEntry} (hc : elementField known before x = .ok (after, c)) :
    c.WellTyped types earlier := by
  obtain ⟨child, name, hword, hchild, hfield, hstatements⟩ := elementField_eq_ok hc
  have hmem := h.mem_names hkeeps hchild
  obtain ⟨b, hb, rfl⟩ := exists_binding?_of_keeps hkeeps hchild
  obtain ⟨d, isRoot, cs, ds, -, -, -, -, -, hfound⟩ := h.element hb
  have hinhabits : Default.Inhabits types earlier (.newInstance b.name) (.named b.name) :=
    .newInstance
      (t := recordType b.name x.name isRoot d.attributeEntries d.elementEntries (cs ++ ds))
      (List.mem_of_find?_eq_some (found_eq_ok.mp hfound)) rfl
  refine ⟨?_, ?_, ?_, ?_⟩
  · rw [hfield]
    exact hinhabits.field hword
  · rw [hfield, typeNames_fieldType]
    simpa using hmem
  · rw [hstatements, typeNames_extraction]
    simpa using hmem
  · rw [hstatements, hfield, resultFields_extraction]

/-! ## Declared types -/

/-- A declared enumeration is well typed. -/
theorem wellTyped_enumType {name : String} (hname : name ∈ types.map (·.name))
    (labels members : List String) : (enumType name labels members).WellTyped types earlier := by
  refine ⟨.nil, nofun, nofun, fun m hm => ?_⟩
  rw [List.mem_singleton.mp hm]
  refine ⟨?_, _, Body.finish?_ofStatements _, ?_, ?_⟩
  · simpa [Signature.typeNames, typeNames_readerParameters] using hname
  · simp [enumBody]
  · simp [enumBody]

variable {cs : List FieldCode}

/-- The code of well-typed fields names declared types only. -/
theorem typeNames_statements (hcs : ∀ c ∈ cs, c.WellTyped types earlier) :
    (cs.flatMap fun c => Statement.typeNamesOfAll c.statements) ⊆ types.map (·.name) := by
  intro name hname
  obtain ⟨c, hc, hname⟩ := List.mem_flatMap.mp hname
  exact (hcs c hc).statements hname

/-- The code of well-typed fields sets these fields only. -/
theorem resultFields_statements (hcs : ∀ c ∈ cs, c.WellTyped types earlier) :
    (cs.flatMap fun c => Statement.resultFieldsOfAll c.statements) ⊆
      (cs.map (·.field)).map (·.name) := by
  intro name hname
  obtain ⟨c, hc, hname⟩ := List.mem_flatMap.mp hname
  rw [(hcs c hc).target, List.mem_singleton] at hname
  exact List.mem_map.mpr ⟨c.field, List.mem_map.mpr ⟨c, hc, rfl⟩, hname.symm⟩

/-- A record is well typed if the parts of its fields fit together and its operations are. -/
theorem wellTyped_record {t : DeclaredType} (hshape : t.shape = .record (cs.map (·.field)))
    (hnodup : (cs.map (·.field.name)).Nodup) (hcs : ∀ c ∈ cs, c.WellTyped types earlier)
    (hmethods : ∀ m ∈ t.methods, m.WellTyped types (cs.map (·.field))) :
    t.WellTyped types earlier := by
  have hfields : t.shape.fields = cs.map (·.field) := by rw [hshape, Shape.fields]
  refine ⟨?_, ?_, ?_, ?_⟩ <;> rw [hfields]
  · rwa [List.map_map]
  · exact List.forall_mem_map.mpr fun c hc => (hcs c hc).default
  · exact List.forall_mem_map.mpr fun c hc => (hcs c hc).typeNames
  · exact hmethods

/-- A struct is well typed if its fields are. -/
theorem wellTyped_structType {name : String} (hname : name ∈ types.map (·.name))
    (hnodup : (cs.map (·.field.name)).Nodup) (hcs : ∀ c ∈ cs, c.WellTyped types earlier) :
    (structType name cs).WellTyped types earlier := by
  refine wellTyped_record rfl hnodup hcs fun m hm => ?_
  rw [List.mem_singleton.mp hm]
  refine ⟨?_, _, Body.finish?_ofStatements _, ?_, ?_⟩
  · simpa [Signature.typeNames, typeNames_readerParameters] using hname
  · rw [typeNames_structBody]
    exact typeNames_statements hcs
  · rw [resultFields_structBody]
    exact resultFields_statements hcs

/-- An element is well typed if its fields are. -/
theorem wellTyped_recordType {typeName : String} (hname : typeName ∈ types.map (·.name))
    (name : String) (isRoot : Bool) (attributes : List AttributeEntry)
    (elements : List ElementEntry) (hnodup : (cs.map (·.field.name)).Nodup)
    (hcs : ∀ c ∈ cs, c.WellTyped types earlier) :
    (recordType typeName name isRoot attributes elements cs).WellTyped types earlier := by
  refine wellTyped_record rfl hnodup hcs fun m hm => ?_
  rcases List.mem_cons.mp hm with rfl | hm
  · refine ⟨?_, _, Body.finish?_ofStatements _, ?_, ?_⟩
    · simpa [loadMethod, loadSignature, Signature.typeNames, Parameter.typeNames] using hname
    · rw [typeNames_elementBody]
      exact typeNames_statements hcs
    · rw [resultFields_elementBody]
      exact resultFields_statements hcs
  · cases isRoot with
    | false => cases hm
    | true =>
        rw [List.mem_singleton.mp hm]
        refine ⟨?_, _, Body.finish?_ofStatements _, ?_, ?_⟩
        · simpa [parseMethod, parseSignature, Signature.typeNames, Parameter.typeNames] using hname
        · simp
        · simp

/-- In complete declarations every type is well typed among those before it. -/
theorem Complete.wellTyped (h : Complete s names types) {t : DeclaredType} (ht : t ∈ types)
    (hearlier : ∀ fields, t.shape = .record fields → HoldsEnumerations types earlier) :
    t.WellTyped types earlier := by
  have hname : t.name ∈ types.map (·.name) := List.mem_map.mpr ⟨t, ht, rfl⟩
  obtain ⟨b, hdeclares⟩ := h.exists_declares ht
  cases hdeclares with
  | enumeration => exact wellTyped_enumType hname _ _
  | struct _ keeps gather nodup =>
      refine wellTyped_structType hname nodup (forall_of_forall₂ (gather_eq_ok gather) ?_)
      rintro v c ⟨before, after, hc⟩
      exact h.wellTyped_structField keeps (hearlier _ rfl) hc
  | element _ keeps attributes elements nodup =>
      refine wellTyped_recordType hname _ _ _ _ nodup (List.forall_mem_append.mpr ⟨?_, ?_⟩)
      · refine forall_of_forall₂ (gather_eq_ok attributes) ?_
        rintro x c ⟨before, after, hc⟩
        exact h.wellTyped_attributeField keeps (hearlier _ rfl) hc
      · refine forall_of_forall₂ (gather_eq_ok elements) ?_
        rintro x c ⟨before, after, hc⟩
        exact h.wellTyped_elementField keeps hc

/-- Everything in front of a list that is cut apart lies in front of an element that comes later. -/
theorem subset_of_append_eq {as bs xs ys : List α} {y : α} (h : as ++ bs = xs ++ y :: ys)
    (hy : y ∉ as) : as ⊆ xs := by
  rcases List.append_eq_append_iff.mp h with ⟨cs, rfl, -⟩ | ⟨cs, rfl, hcs⟩
  · exact List.subset_append_left _ _
  · cases cs with
    | nil => simp
    | cons c cs =>
        rw [List.cons_append, List.cons.injEq] at hcs
        exact absurd (by simp [hcs.1]) hy

/-- All enumerations are declared before the first record. -/
theorem Complete.holdsEnumerations (h : Complete s names types) {t : DeclaredType}
    {later : List DeclaredType} (hsplit : types = earlier ++ t :: later) {fields : List Field}
    (hshape : t.shape = .record fields) : HoldsEnumerations types earlier := by
  obtain ⟨enums, structs, elements, htypes, henums, hstructs, helements⟩ := h.exists_groups
  have hs := h.wellFormed
  have hrecords : ∀ u ∈ structs ++ elements, ∃ fields, u.shape = .record fields := by
    refine List.forall_mem_append.mpr ⟨?_, ?_⟩
    · refine forall_of_forall₂ (forall₂_imp_of_mem hstructs fun d hd u hu => hu.struct hs hd) ?_
      rintro d u ⟨-, hu, -⟩
      exact ⟨_, hu⟩
    · refine forall_of_forall₂ (forall₂_imp_of_mem helements fun d hd u hu => hu.element hs hd) ?_
      rintro d u ⟨-, hu, -⟩
      exact ⟨_, hu⟩
  have henumerations : ∀ u ∈ enums, ∃ variants, u.shape = .enumeration variants := by
    refine forall_of_forall₂ (forall₂_imp_of_mem henums fun d hd u hu => hu.enumeration hs hd) ?_
    rintro ⟨path, v⟩ u hu
    cases hu with
    | intro _ shape _ => exact ⟨_, shape⟩
  rw [List.append_assoc] at htypes
  -- the record is none of the enumerations, so it was cut off behind all of them
  have hsub : enums ⊆ earlier := by
    refine subset_of_append_eq (htypes.symm.trans hsplit) fun ht => ?_
    obtain ⟨variants, hvariants⟩ := henumerations t ht
    cases hshape.symm.trans hvariants
  intro u hu variants hvariants
  rw [htypes] at hu
  rcases List.mem_append.mp hu with hu | hu
  · exact hsub hu
  · obtain ⟨fields, hfields⟩ := hrecords u hu
    cases hfields.symm.trans hvariants

end

end Code

namespace Schema

open Code

variable {s : Schema}

/-- The module that was made for a loaded schema is well typed: the fields of a record have
different names, each default is a value of the type of its field, all types that are named anywhere
are declared, and what is loaded goes to fields of the record. -/
theorem generate_wellTyped {text runtime code : String} (h : (parse text).result = .ok s)
    (hcode : (s.generate runtime).result = .ok code) :
    ∃ names types, s.declarations.result = .ok (names, types) ∧
      Module.code ⟨runtime, types⟩ = .ok code ∧
      ∀ earlier t later, types = earlier ++ t :: later → t.WellTyped types earlier := by
  obtain ⟨names, types, hdeclarations, hprinted⟩ := declarations_of_generate hcode
  have hcomplete := complete_of_declarations (wellFormed_of_parse h) hdeclarations
  refine ⟨names, types, hdeclarations, hprinted, fun earlier t later hsplit => ?_⟩
  have hmem : t ∈ types := by
    rw [hsplit]
    exact List.mem_append_right _ List.mem_cons_self
  exact hcomplete.wellTyped hmem fun fields hshape => hcomplete.holdsEnumerations hsplit hshape

/-- The types of the nested schema are well typed, each among those before it. -/
theorem generate_wellTyped_nested :
    (parse nestedText).result = .ok nestedSchema ∧
      ∃ code, (nestedSchema.generate "sml_document").result = .ok code ∧
        ∃ names types, nestedSchema.declarations.result = .ok (names, types) ∧
          types.map (·.name) = ["IEnum", "PStruct", "IDocument", "IElement"] ∧
          ∀ earlier t later, types = earlier ++ t :: later → t.WellTyped types earlier := by
  obtain ⟨code, hcode⟩ := exists_generate_nested
  obtain ⟨names, types, hdeclarations, -, htyped⟩ := generate_wellTyped parse_nestedText hcode
  exact ⟨parse_nestedText, code, hcode, names, types, hdeclarations,
    map_name_nested hdeclarations, htyped⟩

end Schema

end SmlSchema
