import SmlSchema.Schema.TypeText

/-! # Adding to a schema

Every operation gives the changed part or says why there can be none.
-/

namespace SmlSchema

/-- The first text that was seen before. -/
def firstRepeated? (seen : List String) : List String → Option String
  | [] => none
  | x :: xs => if seen.contains x then some x else firstRepeated? (x :: seen) xs

/-- An enumeration has labels, and no two are equal. -/
def ValueType.makeEnum (name : String) (labels : List String) : Except Error ValueType :=
  if labels.isEmpty then .error (.misfit (.noLabels name))
  else match firstRepeated? [] labels with
    | some l => .error (.duplicate (.label name l))
    | none => .ok (.enum name labels)

namespace Scope

/-- The scope does not define the name yet. -/
def checkFree (s : Scope) (path : Path) (category : Category) (name : String) :
    Except Error Unit :=
  if (s.names category).contains name then .error (.duplicate (.definition category name path))
  else .ok ()

def addValueType (s : Scope) (path : Path) (v : ValueType) : Except Error Scope := do
  s.checkFree path .valueType v.name
  return { s with valueTypes := s.valueTypes ++ [v] }

def addEnum (s : Scope) (path : Path) (name : String) (labels : List String) :
    Except Error Scope := do
  s.addValueType path (← ValueType.makeEnum name labels)

/-- An empty definition of the name; a value type cannot be empty. -/
def add (s : Scope) (path : Path) (category : Category) (name : String) : Except Error Scope := do
  s.checkFree path category name
  match category with
  | .valueType => .error (.unsupported (.creation category name))
  | .struct => return { s with structs := s.structs ++ [{ name }] }
  | .attribute => return { s with attributes := s.attributes ++ [{ name }] }
  | .element => return { s with elements := s.elements ++ [{ name }] }

end Scope

namespace Struct

/-- A further value: values have different names, and after an optional one all are optional. -/
def newValue (s : Struct) (name : String) (optional : Bool) (c : Candidate) (nullable : Bool) :
    Except Error StructValue :=
  if s.values.any (·.name == name) then .error (.duplicate (.structValue s.name name))
  else if s.values.getLast?.any (·.optional) && !optional then
    .error (.misfit (.requiredAfterOptional name s.name))
  else match c with
    | .value base => .ok { name, optional, base, nullable }
    | _ => .error (.misfit (.structValueBase name))

def push (s : Struct) (v : StructValue) : Struct := { s with values := s.values ++ [v] }

end Struct

/-- The type of an attribute is set once. -/
def AttributeDef.setType (a : AttributeDef) (t : DataType) : Except Error AttributeDef :=
  match a.type with
  | none => .ok { a with type := some t }
  | some _ => .error (.setOnce (.typeAgain a.name))

def AttributeDef.getType (a : AttributeDef) : Except Error DataType :=
  match a.type with
  | some t => .ok t
  | none => .error (.setOnce (.typeMissing a.name))

/-- The content of an element is set once; `none` stands for unordered content. -/
def ElementDef.setContent (e : ElementDef) (kind : Option ReservedContent) :
    Except Error ElementDef :=
  match e.content, kind with
  | some _, _ => .error (.setOnce (.contentAgain e.name))
  | none, none => .ok { e with content := some (.unordered [] []) }
  | none, some kind => .error (.unsupported (.content kind e.name))

namespace Content

/-- A child element, with its name as it is seen from the scope of the owner. -/
def addElement (p : Place) (owner name : String) (o : Occurrence) : Content → Except Error Content
  | .reserved _ => .error (.lacking (.entries "add_element"))
  | .unordered attributes elements =>
    if elements.any (·.name == name) then .error (.duplicate (.entry owner .element name))
    else do
      let (q, _) ← p.getElement name
      return .unordered attributes (elements ++ [⟨q.path, name, o⟩])

/-- One more attribute of a new name, added as the part `part`. -/
def addEntry (part owner name : String) (entry : Except Error AttributeEntry) :
    Content → Except Error Content
  | .reserved _ => .error (.lacking (.entries part))
  | .unordered attributes elements =>
    if attributes.any (·.name == name) then .error (.duplicate (.entry owner .attribute name))
    else do return .unordered (attributes ++ [← entry]) elements

/-- An attribute, with its name as it is seen from the scope of the owner. -/
def addAttribute (p : Place) (owner name : String) (o : Occurrence) (c : Content) :
    Except Error Content :=
  c.addEntry "add_attribute" owner name do
    let (q, _) ← p.getAttribute name
    return .defined q.path name o

def addInline (owner : String) (a : AttributeDef) (o : Occurrence) (c : Content) :
    Except Error Content :=
  c.addEntry "add_inline_attribute" owner a.name (.ok (.inline a o))

end Content

namespace Schema

/-- The root is the top-level element of the name. -/
def setRoot (s : Schema) (name : String) : Except Error Schema := do
  let _ ← (Place.top s.definitions).getElement name
  return { s with root := some name }

/-- The root is the only top-level element. -/
def setDefaultRoot (s : Schema) : Except Error Schema :=
  match s.definitions.elements with
  | [] => .error (.rootUndefined .none)
  | [e] => .ok { s with root := some e.name }
  | _ => .error .rootAmbiguous

end Schema

end SmlSchema
