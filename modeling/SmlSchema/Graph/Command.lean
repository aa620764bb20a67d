import SmlSchema.Graph.Call
import SmlSchema.Schema.Command

/-! # Commands as calls

A command names scopes and definitions, and calls take their numbers. So a command looks the names
up and then makes one call or several.
-/

namespace SmlSchema

namespace Graph

/-- The scope of the element that the name stands for. -/
def enter (g : Graph) (n : Nat) (name : String) : Except Error Nat := do
  let e ← g.find n .element name
  return (← g.elementAt e).scope

/-- The scope reached by entering the named elements one after the other. -/
def place (g : Graph) (route : List String) : Except Error Nat := route.foldlM g.enter 0

/-- The element that owns the scope and has the part `part`. -/
def ownerOf (g : Graph) (n : Nat) (part : String) : Except Error Nat := do
  match (← g.scopeAt n).owner with
  | some e => return e
  | none => .error (.lacking (.owner part))

end Graph

def BaseName.offer (g : Graph) (n : Nat) : BaseName → Except Error Graph.Offer
  | .predefined p => .ok (.base (.value (.predefined p)))
  | .valueType name => do return .base (.value (.valueType (← g.find n .valueType name)))
  | .struct name => do return .base (.struct (← g.find n .struct name))
  | .foreign shown => .ok (.foreign shown)

namespace Graph

/-- Build the type that the text writes, if there is a text. -/
def buildTypeOf? (n : Nat) : Option String → Work (Option Nat)
  | none => pure none
  | some text => do return some (← buildTypeOf n text)

def assignType? (a : Nat) : Option Nat → Work Unit
  | none => pure ()
  | some t => assignType a t

/-- A new attribute, with the type that the text writes, if there is a text. -/
def newInline (n : Nat) (name : String) (text : Option String) (range : Bounds) :
    Work (Nat × Occurrence) := do
  let type ← buildTypeOf? n text
  let o ← Occurrence.make range.1 range.2
  let a ← newAttribute name
  assignType? a type
  return (a, o)

end Graph

/-- Do the action in the scope by calls. -/
def Action.callIn (n : Nat) : Action → Graph.Work Unit
  | .addEnum name labels => do let _ ← Graph.addEnum n name labels
  | .addReserved name kind => do
    let v ← Graph.newValueType (.reserved name kind)
    let _ ← Graph.addExisting n .valueType name v
  | .add category name => do let _ ← Graph.add n category name
  | .addStructValue struct name optional base nullable => do
    let d ← (← get).find n .struct struct
    Graph.addValue d name optional (← base.offer (← get) n) nullable
  | .setType name base nullable range arrayNullable => do
    let offer ← base.offer (← get) n
    let range ← Bounds.range? range
    let t ← Graph.buildType offer nullable range arrayNullable
    Graph.assignType (← (← get).find n .attribute name) t
  | .readType text => do let _ ← Graph.buildTypeOf n text
  | .setContent kind => do Graph.setContent (← (← get).ownerOf n "set_content") kind
  | .addElementEntry name (min, max) => do
    let o ← Occurrence.make min max
    Graph.addElement (← (← get).ownerOf n "content") name o
  | .addAttributeEntry name (min, max) => do
    let o ← Occurrence.make min max
    Graph.addAttribute (← (← get).ownerOf n "content") name o
  | .addInlineEntry name text range => do
    let (a, o) ← Graph.newInline n name text range
    Graph.addInline (← (← get).ownerOf n "content") a o
  | .setRoot name => Graph.setRoot name
  | .setDefaultRoot => Graph.setDefaultRoot

/-- Find the scope, then do the action in it. -/
def Command.call (c : Command) : Graph.Work Unit := do
  c.action.callIn (← (← get).place c.route)

/-- The graph after the commands, whether they succeed or fail. -/
def Graph.callAll (g : Graph) (cs : List Command) : Graph :=
  cs.foldl (fun g c => (c.call.on g).2) g

end SmlSchema
