import SmlSchema.Document.Attribute
import SmlSchema.Document.Printer
import SmlSchema.Schema.Build

/-! # Writing a schema as a document

Definitions are written by kind: value types, structs, attributes, elements, each in the order in
which they were made.
-/

namespace SmlSchema

/-- An attribute line with the texts. -/
def textLine (name first : String) (more : List String := []) : Node :=
  .attribute ⟨name, some first :: more.map some, by simp⟩

def ValueType.node : ValueType → Except Error Node
  | .enum name labels => do
    let values ← Attribute.make "Values" (labels.map some)
    return .element "EnumType" [textLine "Name" name, .attribute values]
  | .reserved name kind => .error (.unsupported (.writingValueType kind name))

def StructValue.node (v : StructValue) : Node :=
  textLine "Value" v.name [if v.optional then "Optional" else "Required", v.typeText]

def Struct.node (s : Struct) : Node :=
  .element "Struct" (textLine "Name" s.name :: s.values.map StructValue.node)

def AttributeDef.node (a : AttributeDef) : Except Error Node := do
  let t ← a.getType
  return .element "Attribute" [textLine "Name" a.name, textLine "DataType" t.text]

def AttributeEntry.node (e : AttributeEntry) : Except Error Node := do
  let word ← e.occurrence.word
  match e with
  | .defined _ name _ => return textLine "Attribute" name [word]
  | .inline a _ => return textLine "Attribute" a.name [word, (← a.getType).text]

def ElementEntry.node (e : ElementEntry) : Except Error Node := do
  return textLine "Element" e.name [← e.occurrence.word]

def Content.node (owner : String) : Content → Except Error Node
  | .unordered attributes elements => do
    let attributes ← attributes.mapM AttributeEntry.node
    let elements ← elements.mapM ElementEntry.node
    return .element "UnorderedContent" (attributes ++ elements)
  | .reserved kind => .error (.unsupported (.writingContent kind owner))

/-- The nodes of a scope before those of its elements. -/
def Scope.leafNodes (s : Scope) : Except Error (List Node) := do
  let valueTypes ← s.valueTypes.mapM ValueType.node
  let attributes ← s.attributes.mapM AttributeDef.node
  return valueTypes ++ s.structs.map Struct.node ++ attributes

mutual

/-- Without definitions of its own an element has no node for them. -/
def ElementDef.node : ElementDef → Except Error Node
  | ⟨name, valueTypes, structs, attributes, elements, content⟩ => do
    let scope : Scope := ⟨valueTypes, structs, attributes, elements⟩
    let leaves ← scope.leafNodes
    let inner ← ElementDef.nodes elements
    let definitions := if scope.isEmpty then [] else [Node.element "Definitions" (leaves ++ inner)]
    let content ← match content with
      | none => pure []
      | some c => do pure [← c.node name]
    return .element "Element" (textLine "Name" name :: definitions ++ content)
termination_by structural e => e

def ElementDef.nodes : List ElementDef → Except Error (List Node)
  | [] => return []
  | e :: es => do return (← e.node) :: (← ElementDef.nodes es)
termination_by structural es => es

end

def Scope.nodes (s : Scope) : Except Error (List Node) := do
  let leaves ← s.leafNodes
  return leaves ++ (← ElementDef.nodes s.elements)

namespace Schema

/-- The root is named only if there are several top-level elements. -/
def rootLines (s : Schema) : Except Error (List Node) :=
  match s.definitions.elements with
  | [] | [_] => return []
  | _ => do return [textLine "RootElement" (← s.rootName)]

def document (s : Schema) : Except Error Document := do
  return { root := ⟨"Schema", (← s.definitions.nodes) ++ (← s.rootLines)⟩ }

/-- The schema in its canonical form. -/
def render (s : Schema) : Except Error String := do return (← s.document).render

end Schema

end SmlSchema
