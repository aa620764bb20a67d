import SmlSchema.Code.Field
import SmlSchema.Schema.Build

/-! # The type of an element

It has a field for each attribute and each child element of the content, and an operation that
checks the names of a document's element and loads its nodes into the fields. The type of the root
element also reads whole documents.
-/

namespace SmlSchema.Code

/-- Only the four ranges that have a word can be read. -/
def checkOccurrence (o : Occurrence) (kind : NodeKind) (name : String) : Except Error Unit :=
  if o.isRequired || o.isOptional || o.isRepeated then .ok ()
  else .error (.unsupported (.occurrence o kind name))

/-- The base of a field's name. -/
def fieldBase (o : Occurrence) (name : String) : String :=
  if o.isRepeated then name ++ "List" else name

/-- The type of a field for something that occurs so often. -/
def fieldType (o : Occurrence) (t : TypeDesc) : TypeDesc :=
  if o.isRepeated then .list t
  else if o.isOptional then
    match t with
    | .nullable _ => t
    | _ => .nullable t
  else t

def fieldDefault (o : Occurrence) (d : Default) : Default :=
  if o.isRepeated then .emptyList else if o.isOptional then .none else d

/-- The definition behind an entry. -/
def entryDefinition (s : Schema) : AttributeEntry → Except Error AttributeDef
  | .inline a _ => .ok a
  | .defined scope name _ =>
    match (s.scopeAt? scope).bind (·.attribute? name) with
    | some a => .ok a
    | none => .error (.undefined (.definition .attribute name scope))

def attributeField (s : Schema) (names : TypeNames) (fields : MemberNames) (e : AttributeEntry) :
    Except Error (MemberNames × FieldCode) := do
  let o := e.occurrence
  checkOccurrence o .attribute e.name
  let t ← (← entryDefinition s e).getType
  let type := fieldType o (← dataType names t)
  let default := fieldDefault o (← dataDefault names t)
  let (name, fields) ← fields.reserve (fieldBase o e.name)
  let load ← loadValue names t
  return (fields, {
    field := { name, type, default }
    filling := .nodes o .attribute "attribute" e.name load })

def elementField (names : TypeNames) (fields : MemberNames) (e : ElementEntry) :
    Except Error (MemberNames × FieldCode) := do
  let o := e.occurrence
  checkOccurrence o .element e.name
  let child ← names.nameOf (.element e.scope e.name)
  let (name, fields) ← fields.reserve (fieldBase o e.name)
  return (fields, {
    field := {
      name
      type := fieldType o (.named child)
      default := fieldDefault o (.newInstance child) }
    filling := .nodes o .element "child" e.name (invoke (.typeRef child) "load" [.var "child"]) })

/-- The nodes of one kind have known names, or there are none. -/
def checkNames (kind : NodeKind) (names : List String) : Step :=
  .evaluate (match names with
    | [] => invoke elementVar ("assure_no_" ++ kind.word ++ "s")
    | _ => invoke elementVar ("assure_" ++ kind.word ++ "_names")
        [.literal (.list (names.map .string))])

def loadSignature (typeName : String) : Signature where
  name := "load"
  parameters := [{ name := "element", type := .runtime .element }]
  returns := .named typeName

def parseSignature (typeName : String) : Signature where
  name := "parse"
  parameters := [{ name := "content", type := .scalar .string }]
  returns := .named typeName

/-- The type of the root element also reads whole documents. -/
def emitParse : Body :=
  let b := Body.addStep {}
    (.assign (.var "document") (invoke (.runtime .document) "parse" [.var "content"]))
  b.addStep (.giveBack (invoke .selfType "load" [.attr (.var "document") "root"]))

/-- A record with the fields of the entries, and what loads it. -/
def declareRecord (typeName name : String) (isRoot : Bool) (attributes : List AttributeEntry)
    (elements : List ElementEntry) (cs : List FieldCode) : Except BuildFlaw DeclaredType := do
  let b := Body.addStep {} (.evaluate (invoke elementVar "assure_name" [text name]))
  let b := b.addStep (checkNames .element (elements.map (·.name)))
  let b := b.addStep (checkNames .attribute (attributes.map (·.name)))
  let b := b.addStep (.assign resultVar (.call .selfType []))
  let (d, b) ← emitFields (.newRecord typeName) b cs
  let d := d.addMethod (loadSignature typeName) (b.addStep (.giveBack resultVar))
  return if isRoot then d.addMethod (parseSignature typeName) emitParse else d

/-- The type of an element, once its own scope has been done. -/
def elementType (s : Schema) (names : TypeNames) (typeName name : String) (isRoot : Bool)
    (content : Option Content) : Except Error DeclaredType := do
  let (attributes, elements) ← match content with
    | none => pure ([], [])
    | some (.unordered attributes elements) => pure (attributes, elements)
    | some (.reserved kind) => .error (.unsupported (.contentCode kind name))
  let (fields, cs) ← gather (attributeField s names) (.start false) attributes
  let (_, ds) ← gather (elementField names) fields elements
  declareRecord typeName name isRoot attributes elements (cs ++ ds)

mutual

/-- An element has its name before the elements of its scope are done, so that they can refer to
it. -/
def generateElement (s : Schema) (outer : Path) (names : TypeNames) :
    ElementDef → Traced Error Generated
  | ⟨name, _, _, _, elements, content⟩ => do
    let isRoot := outer.isEmpty && name == (← s.rootName)
    let typeName ← names.generate (name ++ if isRoot then "Document" else "Element")
    let names ← names.add (.element outer name) typeName .element
    report ("element " ++ Text.quoted name ++ " -> " ++ typeName)
    let (names, inner) ← generateElements s (name :: outer) names elements
    let declared ← elementType s names typeName name isRoot content
    return (names, declared :: inner)
termination_by structural e => e

def generateElements (s : Schema) (outer : Path) (names : TypeNames) :
    List ElementDef → Traced Error Generated
  | [] => pure (names, [])
  | e :: es => do
    let (names, types) ← generateElement s outer names e
    let (names, more) ← generateElements s outer names es
    return (names, types ++ more)
termination_by structural es => es

end

end SmlSchema.Code
