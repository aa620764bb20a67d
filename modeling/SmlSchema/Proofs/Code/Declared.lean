import SmlSchema.Code.Generation
import SmlSchema.Proofs.Code.Statements

/-! # The types that the generator declares

The generator builds a type by adding variants, fields and operations, and bodies by adding steps
and blocks. No call of it is refused, and what comes out is the type with these parts and with
bodies of these statements.
-/

namespace SmlSchema.Code

/-! ## Statements of bodies -/

def enumBody (labels : List String) : List Statement :=
  [.step (.assign (.var "position") (invoke attributeVar "get_enum"
      [.literal (.list (labels.map .string)), .var "index", .var "nullable"])),
   .block (.ifTrue (.isAbsent (.var "position"))) [.step (.giveBack (.literal .none))],
   .step (.giveBack (.memberAt .selfType (.var "position")))]

/-- Load a value into the field. An optional one is read only if the attribute is long enough. -/
def structExtraction (v : StructValue) (position : Nat) (fieldName : String) (load : Expr) :
    List Statement :=
  let assign := Statement.step (.assign (.attr resultVar fieldName) load)
  if v.optional then
    [.block (.ifTrue (.greater (.attr attributeVar "value_count") (indexPlus position))) [assign]]
  else [assign]

/-- Find the nodes of the name and load each into the field. -/
def extraction (o : Occurrence) (kind : NodeKind) (holder nodeName fieldName : String)
    (load : Expr) : List Statement :=
  let target := Expr.attr resultVar fieldName
  let find (operation : String) : Expr := invoke elementVar operation [text nodeName]
  if o.isRequired then
    [.step (.assign (.var holder) (find ("required_" ++ kind.word))), .step (.assign target load)]
  else if o.isOptional then
    [.step (.assign (.var holder) (find ("optional_" ++ kind.word))),
     .block (.ifTrue (.isPresent (.var holder))) [.step (.assign target load)]]
  else
    let operation := (if o.isRepeatedPlus then "one_or_more_" else "") ++ kind.word ++ "s"
    [.block (.forEach holder (find operation)) [.step (.append target load)]]

/-- The statements that fill the field. -/
def FieldCode.statements (c : FieldCode) : List Statement :=
  match c.filling with
  | .value v position load => structExtraction v position c.field.name load
  | .nodes o kind holder name load => extraction o kind holder name c.field.name load

def structBody (cs : List FieldCode) : List Statement :=
  [.block (.ifTrue (.both (.var "nullable") (invoke attributeVar "is_null" [.var "index"])))
      [.step (.giveBack (.literal .none))],
   .step (.assign resultVar (.call .selfType []))]
    ++ cs.flatMap (·.statements) ++ [.step (.giveBack resultVar)]

/-- The nodes of one kind have known names, or there are none. -/
def nameCheck (kind : NodeKind) (names : List String) : Statement := .step (checkNames kind names)

def elementBody (name : String) (attributes elements : List String) (cs : List FieldCode) :
    List Statement :=
  [.step (.evaluate (invoke elementVar "assure_name" [text name])),
   nameCheck .element elements,
   nameCheck .attribute attributes,
   .step (.assign resultVar (.call .selfType []))]
    ++ cs.flatMap (·.statements) ++ [.step (.giveBack resultVar)]

/-! ## Declared types -/

def enumType (name : String) (labels members : List String) : DeclaredType where
  name := name
  shape := .enumeration (List.zipWith (fun m l => ⟨m, .string l⟩) members labels)
  methods := [{
    signature :=
      { name := "parse", parameters := readerParameters, returns := .nullable (.named name) }
    body := .ofStatements (enumBody labels) }]

def structType (name : String) (cs : List FieldCode) : DeclaredType where
  name := name
  shape := .record (cs.map (·.field))
  methods := [{
    signature :=
      { name := "read", parameters := readerParameters, returns := .nullable (.named name) }
    body := .ofStatements (structBody cs) }]

def loadMethod (typeName : String) (body : List Statement) : Method where
  signature := loadSignature typeName
  body := .ofStatements body

/-- The type of the root element also reads whole documents. -/
def parseMethod (typeName : String) : Method where
  signature := parseSignature typeName
  body := .ofStatements
    [.step (.assign (.var "document") (invoke (.runtime .document) "parse" [.var "content"])),
     .step (.giveBack (invoke .selfType "load" [.attr (.var "document") "root"]))]

/-- A record with the fields of the entries, and what loads it. -/
def recordType (typeName name : String) (isRoot : Bool) (attributes : List AttributeEntry)
    (elements : List ElementEntry) (cs : List FieldCode) : DeclaredType where
  name := typeName
  shape := .record (cs.map (·.field))
  methods :=
    loadMethod typeName (elementBody name (attributes.map (·.name)) (elements.map (·.name)) cs)
      :: if isRoot then [parseMethod typeName] else []

/-! ## Bodies that are built -/

theorem Body.ofStatements_eq (ss : List Statement) :
    Body.ofStatements ss = Body.addStatements {} ss := rfl

/-- The calls that make the code of an enumeration make its statements. -/
theorem emitEnum_eq_ok (labels : List String) :
    emitEnum labels = .ok (.ofStatements (enumBody labels)) := by
  simp only [emitEnum, Body.addStep_eq, Body.closeBlock_openBlock, ok_bind, pure_eq_ok,
    ← Body.addStatements_append]
  rfl

/-- The calls for a value of a struct add its statements. -/
theorem emitValue_eq_ok (b : Body) (v : StructValue) (position : Nat) (name : String)
    (load : Expr) :
    emitValue b v position name load =
      .ok (b.addStatements (structExtraction v position name load)) := by
  unfold emitValue structExtraction
  simp only [Body.addStep_eq, Body.closeBlock_openBlock]
  split <;> rfl

/-- The calls for the nodes of an entry add its statements. -/
theorem emitNodes_eq_ok (b : Body) (o : Occurrence) (kind : NodeKind)
    (holder nodeName name : String) (load : Expr) :
    emitNodes b o kind holder nodeName name load =
      .ok (b.addStatements (extraction o kind holder nodeName name load)) := by
  unfold emitNodes extraction
  simp only [Body.addStep_eq, Body.closeBlock_openBlock, ← Body.addStatements_append]
  split
  · rfl
  · split <;> rfl

/-- What fills a field is added as a whole: every block that is opened for it is closed. -/
theorem FieldCode.emit_eq_ok (c : FieldCode) (b : Body) :
    c.emit b = .ok (b.addStatements c.statements) := by
  obtain ⟨field, filling⟩ := c
  cases filling with
  | value v position load => exact emitValue_eq_ok ..
  | nodes o kind holder name load => exact emitNodes_eq_ok ..

/-- The calls for fields add the fields to the record and their statements to the body. -/
theorem emitFields_eq_ok (cs : List FieldCode) (d : DeclaredType) {fs : List Field}
    (hd : d.shape = .record fs) (b : Body) :
    emitFields d b cs = .ok ({ d with shape := .record (fs ++ cs.map (·.field)) },
      b.addStatements (cs.flatMap (·.statements))) := by
  induction cs generalizing d fs b with
  | nil =>
      obtain ⟨name, shape, doc, methods⟩ := d
      cases hd
      simp [emitFields]
  | cons c cs ih =>
      have hadd : d.addField c.field = .ok { d with shape := .record (fs ++ [c.field]) } := by
        rw [DeclaredType.addField, hd]
      rw [emitFields, List.foldlM_cons]
      dsimp only
      rw [hadd, ok_bind, c.emit_eq_ok, ok_bind, pure_eq_ok, ok_bind]
      refine (ih _ rfl _).trans ?_
      simp [Body.addStatements_append]

/-! ## Types that are built -/

/-- Variants are added to an enumeration one after the other. -/
theorem addVariants_eq_ok (vs : List Variant) (d : DeclaredType) {us : List Variant}
    (hd : d.shape = .enumeration us) :
    vs.foldlM DeclaredType.addVariant d = .ok { d with shape := .enumeration (us ++ vs) } := by
  induction vs generalizing d us with
  | nil =>
      obtain ⟨name, shape, doc, methods⟩ := d
      cases hd
      simp
  | cons v vs ih =>
      have hadd : d.addVariant v = .ok { d with shape := .enumeration (us ++ [v]) } := by
        rw [DeclaredType.addVariant, hd]
      rw [List.foldlM_cons, hadd, ok_bind, ih _ rfl, List.append_assoc, List.singleton_append]

/-- Declaring an enumeration by calls succeeds, with the type described by its parts. -/
theorem declareEnum_eq_ok (name : String) (labels members : List String) :
    declareEnum name labels members = .ok (enumType name labels members) := by
  rw [declareEnum, addVariants_eq_ok _ _ rfl, ok_bind, emitEnum_eq_ok, ok_bind]
  rfl

/-- Declaring a struct by calls succeeds, with the type described by its parts. -/
theorem declareStruct_eq_ok (name : String) (cs : List FieldCode) :
    declareStruct name cs = .ok (structType name cs) := by
  simp only [declareStruct, Body.addStep_eq, Body.closeBlock_openBlock, ok_bind,
    emitFields_eq_ok cs (.newRecord name) rfl, ← Body.addStatements_append]
  rfl

/-- Declaring an element by calls succeeds, with the type described by its parts. -/
theorem declareRecord_eq_ok (typeName name : String) (isRoot : Bool)
    (attributes : List AttributeEntry) (elements : List ElementEntry) (cs : List FieldCode) :
    declareRecord typeName name isRoot attributes elements cs =
      .ok (recordType typeName name isRoot attributes elements cs) := by
  simp only [declareRecord, Body.addStep_eq, ok_bind,
    emitFields_eq_ok cs (.newRecord typeName) rfl, ← Body.addStatements_append]
  cases isRoot <;> rfl

@[simp] theorem lift_declareEnum (name : String) (labels members : List String) :
    (liftM (declareEnum name labels members) : Traced Error DeclaredType) =
      pure (enumType name labels members) := by
  rw [declareEnum_eq_ok]
  rfl

@[simp] theorem lift_declareStruct (name : String) (cs : List FieldCode) :
    (liftM (declareStruct name cs) : Traced Error DeclaredType) = pure (structType name cs) := by
  rw [declareStruct_eq_ok]
  rfl

@[simp] theorem lift_declareRecord (typeName name : String) (isRoot : Bool)
    (attributes : List AttributeEntry) (elements : List ElementEntry) (cs : List FieldCode) :
    (liftM (declareRecord typeName name isRoot attributes elements cs) :
      Except Error DeclaredType) =
        .ok (recordType typeName name isRoot attributes elements cs) := by
  rw [declareRecord_eq_ok]
  rfl

end SmlSchema.Code
