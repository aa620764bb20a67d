import SmlSchema.Computation
import SmlSchema.Graph.Basic
import SmlSchema.Schema.Build

/-! # Calls that build a schema

A call makes a definition, builds a type, or changes a definition or a scope. It is carried out step
by step, and a step that fails does not take back what the steps before it have changed.
-/

namespace SmlSchema.Graph

/-- A computation that changes a graph. What it has changed before it fails stays. -/
abbrev Work := Attempt Graph Error

/-! ## New definitions -/

def newValueType (v : ValueType) : Work Nat :=
  modifyGet fun g => (g.valueTypes.length, { g with valueTypes := g.valueTypes ++ [v] })

def newStruct (name : String) : Work Nat :=
  modifyGet fun g => (g.structs.length, { g with structs := g.structs ++ [{ name }] })

def newAttribute (name : String) : Work Nat :=
  modifyGet fun g => (g.attributes.length, { g with attributes := g.attributes ++ [{ name }] })

def withElement (g : Graph) (name : String) (path : Path) (outer : Option Nat) : Graph :=
  { g with
    scopes := .new (name :: path) (some g.elements.length) outer :: g.scopes
    elements := g.elements ++ [{ name, scope := g.scopes.length }] }

/-- An element with an empty scope inside the given one, or inside none. -/
def newElement (name : String) (outer : Option Nat) : Work Nat := do
  let path ← (← get).around outer
  modifyGet fun g => (g.elements.length, g.withElement name path outer)

def newType (t : TypeNode) : Work Nat :=
  modifyGet fun g => (g.types.length, { g with types := g.types ++ [t] })

/-! ## Registering -/

def Registry.add (r : Registry) (key : String) (x : Nat) : Registry :=
  { r with items := r.items ++ [(key, x)] }

/-- One more definition in one registry. -/
def Scopes.insert (ss : Scopes) (n : Nat) (category : Category) (key : String) (x : Nat) : Scopes :=
  modify (·.modifyRegistry (·.add key x) category) ss n

def withItem (g : Graph) (n : Nat) (category : Category) (key : String) (x : Nat) : Graph :=
  { g with scopes := Scopes.insert g.scopes n category key x }

def register (n : Nat) (category : Category) (key : String) (x : Nat) : Work Unit :=
  modify (·.withItem n category key x)

/-- An empty definition for the scope; a value type cannot be empty. -/
def newEmpty (n : Nat) (name : String) : Category → Work Nat
  | .valueType => throw (.unsupported (.creation .valueType name))
  | .struct => newStruct name
  | .attribute => newAttribute name
  | .element => newElement name (some n)

def add (n : Nat) (category : Category) (name : String) : Work Nat := do
  (← get).checkFree n category name
  let x ← newEmpty n name category
  register n category name x
  return x

/-- Any definition can be registered under any key. -/
def addExisting (n : Nat) (category : Category) (key : String) (x : Nat) : Work Nat := do
  (← get).checkNumber category x
  (← get).checkFree n category key
  register n category key x
  return x

/-- The enumeration gets a number when it is registered: before that nothing refers to it. -/
def addEnum (n : Nat) (name : String) (labels : List String) : Work Nat := do
  let v ← ValueType.makeEnum name labels
  (← get).checkFree n .valueType name
  let x ← newValueType v
  register n .valueType name x
  return x

/-! ## Changing definitions -/

def addValue (d : Nat) (name : String) (optional : Bool) (offer : Offer) (nullable : Bool) :
    Work Unit := do
  let g ← get
  let s ← g.structAt d
  g.checkOffer offer
  let v ← s.newValue name optional offer nullable
  set { g with structs := g.structs.set d (s.push v) }

/-- Build a type without assigning it. -/
def buildType (offer : Offer) (nullable : Bool) (range : Option Occurrence) (arrayNullable : Bool) :
    Work Nat := do
  let g ← get
  g.checkOffer offer
  newType (← g.makeType offer nullable range arrayNullable)

/-- Build the type that a text writes. -/
def buildTypeOf (n : Nat) (text : String) : Work Nat := do newType (← (← get).readType n text)

/-- Assign a type that was built, now or long ago, to an attribute. -/
def assignType (a t : Nat) : Work Unit := do
  let g ← get
  let node ← g.attributeAt a
  let type ← numbered t g.types[t]?
  let node ← node.setType type
  set { g with attributes := g.attributes.set a node }

def withContent (g : Graph) (e : Nat) (node : ElementNode) (c : ContentNode) : Graph :=
  { g with elements := g.elements.set e { node with content := some c } }

/-- The content of an element is set once; `none` stands for unordered content. -/
def setContent (e : Nat) (kind : Option ReservedContent) : Work Unit := do
  let g ← get
  let node ← g.elementAt e
  set (g.withContent e node (← node.newContent kind))

/-- Change the content of an element, by its part `part`. -/
def changeContent (e : Nat) (part : String)
    (change : Graph → ElementNode → ContentNode → Except Error ContentNode) : Work Unit := do
  let g ← get
  let node ← g.elementAt e
  let c ← change g node (← node.contentFor part)
  set (g.withContent e node c)

/-- Child elements are told apart by their own names, whatever keys they have. -/
def addElement (e : Nat) (name : String) (o : Occurrence) : Work Unit :=
  changeContent e "add_element" fun g node c =>
    if c.elements.any fun u => g.elements[u.definition]?.any (·.name == name) then
      .error (.duplicate (.entry node.name .element name))
    else do
      let x ← g.find node.scope .element name
      return { c with elements := c.elements ++ [⟨x, o⟩] }

/-- One more attribute of a new name; attributes are told apart by their own names. -/
def ContentNode.addEntry (g : Graph) (owner name : String) (entry : Except Error AttributeUse)
    (c : ContentNode) : Except Error ContentNode :=
  if c.attributes.any fun u => g.attributes[u.definition]?.any (·.name == name) then
    .error (.duplicate (.entry owner .attribute name))
  else do return { c with attributes := c.attributes ++ [← entry] }

def addAttribute (e : Nat) (name : String) (o : Occurrence) : Work Unit :=
  changeContent e "add_attribute" fun g node c =>
    c.addEntry g node.name name do return ⟨← g.find node.scope .attribute name, o, false⟩

/-- Any attribute can be added as one made on the spot. -/
def addInline (e a : Nat) (o : Occurrence) : Work Unit := do
  let node ← (← get).attributeAt a
  changeContent e "add_inline_attribute" fun g owner c =>
    c.addEntry g owner.name node.name (.ok ⟨a, o, true⟩)

/-! ## The root -/

def setRoot (name : String) : Work Unit := do
  let g ← get
  let x ← g.find 0 .element name
  set { g with root := some x }

def setDefaultRoot : Work Unit := do
  let g ← get
  let x ← g.onlyElement
  set { g with root := some x }

/-! ## Calls -/

inductive Call where
  | newEnum (name : String) (labels : List String)
  | newReserved (name : String) (kind : ReservedKind)
  | newStruct (name : String)
  | newAttribute (name : String)
  | newElement (name : String) (outer : Option Nat)
  | add (scope : Nat) (category : Category) (name : String)
  | addExisting (scope : Nat) (category : Category) (key : String) (definition : Nat)
  | addEnum (scope : Nat) (name : String) (labels : List String)
  | addValue (struct : Nat) (name : String) (optional : Bool) (base : Offer) (nullable : Bool)
  | buildType (base : Offer) (nullable : Bool) (range : Option Occurrence) (arrayNullable : Bool)
  | buildTypeOf (scope : Nat) (text : String)
  | assignType (definition type : Nat)
  | setContent (element : Nat) (kind : Option ReservedContent)
  | addElement (element : Nat) (name : String) (occurrence : Occurrence)
  | addAttribute (element : Nat) (name : String) (occurrence : Occurrence)
  | addInline (element definition : Nat) (occurrence : Occurrence)
  | setRoot (name : String)
  | setDefaultRoot
deriving Repr

/-- Carry out a call. The result is the number of what it has made or registered. -/
def Call.perform : Call → Work (Option Nat)
  | .newEnum name labels => do return some (← newValueType (← ValueType.makeEnum name labels))
  | .newReserved name kind => do return some (← newValueType (.reserved name kind))
  | .newStruct name => do return some (← Graph.newStruct name)
  | .newAttribute name => do return some (← Graph.newAttribute name)
  | .newElement name outer => do return some (← Graph.newElement name outer)
  | .add n category name => do return some (← Graph.add n category name)
  | .addExisting n category key x => do return some (← Graph.addExisting n category key x)
  | .addEnum n name labels => do return some (← Graph.addEnum n name labels)
  | .addValue d name optional base nullable => do
    Graph.addValue d name optional base nullable
    return none
  | .buildType base nullable range arrayNullable => do
    return some (← Graph.buildType base nullable range arrayNullable)
  | .buildTypeOf n text => do return some (← Graph.buildTypeOf n text)
  | .assignType a t => do
    Graph.assignType a t
    return none
  | .setContent e kind => do
    Graph.setContent e kind
    return none
  | .addElement e name o => do
    Graph.addElement e name o
    return none
  | .addAttribute e name o => do
    Graph.addAttribute e name o
    return none
  | .addInline e a o => do
    Graph.addInline e a o
    return none
  | .setRoot name => do
    Graph.setRoot name
    return none
  | .setDefaultRoot => do
    Graph.setDefaultRoot
    return none

/-- The graph after the calls, whether they succeed or fail. -/
def runAll (g : Graph) (cs : List Call) : Graph := cs.foldl (fun g c => (c.perform.on g).2) g

end SmlSchema.Graph
