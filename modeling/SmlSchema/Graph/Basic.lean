import SmlSchema.Schema.TypeText

/-! # Schemas under construction

While a schema is built, its definitions are shared. A struct may get a further value after an
attribute has got an array of it, a definition may be registered in several scopes and under any
keys, and a type may be built long before it is assigned. So every definition has a number, and
whatever refers to a definition holds its number.
-/

namespace SmlSchema.Graph

/-! ## Definitions -/

/-- A type of single values. -/
inductive ValueLink where
  | predefined (p : Predefined)
  | valueType (number : Nat)
deriving DecidableEq, Repr

/-- A type of the items of an attribute. -/
inductive BaseLink where
  | value (v : ValueLink)
  | struct (number : Nat)
deriving DecidableEq, Repr

/-- What is offered as the base of a type; something foreign is known by its description only. -/
inductive Offer where
  | base (b : BaseLink)
  | foreign (shown : String)
deriving DecidableEq, Repr

structure ValueNode where
  name : String
  optional : Bool
  base : ValueLink
  nullable : Bool
deriving DecidableEq, Repr

structure StructNode where
  name : String
  values : List ValueNode := []
deriving DecidableEq, Repr

/-- A data type; it never changes after it has been built. -/
structure TypeNode where
  base : BaseLink
  nullable : Bool
  array : Option ArrayShape
deriving DecidableEq, Repr

structure AttributeNode where
  name : String
  type : Option TypeNode := none
deriving DecidableEq, Repr

/-- An attribute of an element; any definition can be added as one made on the spot. -/
structure AttributeUse where
  definition : Nat
  occurrence : Occurrence
  inline : Bool
deriving DecidableEq, Repr

structure ElementUse where
  definition : Nat
  occurrence : Occurrence
deriving DecidableEq, Repr

/-- Unordered content, the only kind that can be set. -/
structure ContentNode where
  attributes : List AttributeUse := []
  elements : List ElementUse := []
deriving DecidableEq, Repr

/-- An element has a scope of its own. -/
structure ElementNode where
  name : String
  scope : Nat
  content : Option ContentNode := none
deriving DecidableEq, Repr

namespace StructNode

def hasOptional (d : StructNode) : Bool := d.values.any (·.optional)

def push (d : StructNode) (v : ValueNode) : StructNode := { d with values := d.values ++ [v] }

/-- A further value: values have different names, and after an optional one all are optional. -/
def newValue (d : StructNode) (name : String) (optional : Bool) (offer : Offer) (nullable : Bool) :
    Except Error ValueNode :=
  if d.values.any (·.name == name) then .error (.duplicate (.structValue d.name name))
  else if d.values.getLast?.any (·.optional) && !optional then
    .error (.misfit (.requiredAfterOptional name d.name))
  else match offer with
    | .base (.value base) => .ok { name, optional, base, nullable }
    | _ => .error (.misfit (.structValueBase name))

end StructNode

/-- The type of an attribute is set once. -/
def AttributeNode.setType (a : AttributeNode) (t : TypeNode) : Except Error AttributeNode :=
  match a.type with
  | none => .ok { a with type := some t }
  | some _ => .error (.setOnce (.typeAgain a.name))

/-- Content for an element that has none; `none` stands for unordered content. -/
def ElementNode.newContent (e : ElementNode) (kind : Option ReservedContent) :
    Except Error ContentNode :=
  match e.content, kind with
  | some _, _ => .error (.setOnce (.contentAgain e.name))
  | none, none => .ok {}
  | none, some kind => .error (.unsupported (.content kind e.name))

/-- The content that has the part `part`. -/
def ElementNode.contentFor (e : ElementNode) (part : String) : Except Error ContentNode :=
  match e.content with
  | some c => .ok c
  | none => .error (.lacking (.content part))

/-! ## Scopes -/

/-- The definitions of one kind that a scope registers under keys, in the order in which they were
registered, and the registry where a lookup goes on. -/
structure Registry where
  items : List (String × Nat) := []
  outer : Option (Nat × Category) := none
deriving DecidableEq, Repr

/-- A scope with its registries, the element that owns it and the scope around it. The names of the
elements around it are known for messages. -/
structure ScopeNode where
  path : Path := []
  owner : Option Nat := none
  outer : Option Nat := none
  valueTypes : Registry := {}
  structs : Registry := {}
  attributes : Registry := {}
  elements : Registry := {}
deriving DecidableEq, Repr

namespace ScopeNode

def registry (s : ScopeNode) : Category → Registry
  | .valueType => s.valueTypes
  | .struct => s.structs
  | .attribute => s.attributes
  | .element => s.elements

def modifyRegistry (s : ScopeNode) (f : Registry → Registry) : Category → ScopeNode
  | .valueType => { s with valueTypes := f s.valueTypes }
  | .struct => { s with structs := f s.structs }
  | .attribute => { s with attributes := f s.attributes }
  | .element => { s with elements := f s.elements }

/-- An empty scope. Each registry goes on in the registry of the scope around that has its kind. -/
def new (path : Path) (owner outer : Option Nat) : ScopeNode where
  path := path
  owner := owner
  outer := outer
  valueTypes := { outer := outer.map (·, .valueType) }
  structs := { outer := outer.map (·, .struct) }
  attributes := { outer := outer.map (·, .attribute) }
  elements := { outer := outer.map (·, .element) }

end ScopeNode

/-- The scopes that there are, the newest first. The number of a scope says how many are older, and
nothing but older scopes can be around it. -/
abbrev Scopes := List ScopeNode

namespace Scopes

def at? : Scopes → Nat → Option ScopeNode
  | [], _ => none
  | s :: older, n => if n = older.length then some s else at? older n

/-- What the scope itself registers, with the keys. -/
def items (ss : Scopes) (n : Nat) (category : Category) : List (String × Nat) :=
  (at? ss n).elim [] fun s => (s.registry category).items

def modify (f : ScopeNode → ScopeNode) : Scopes → Nat → Scopes
  | [], _ => []
  | s :: older, n => if n = older.length then f s :: older else s :: modify f older n

/-- The definition with the key in the registry, else in the one where the lookup goes on. -/
def find? (key : String) : Scopes → Nat × Category → Option Nat
  | [], _ => none
  | s :: older, (n, category) =>
    if n = older.length then
      match (s.registry category).items.lookup key with
      | some x => some x
      | none => (s.registry category).outer.bind (find? key older)
    else find? key older (n, category)

/-- The registry has the key, or the one where the lookup goes on has it. -/
def has (key : String) : Scopes → Nat × Category → Bool
  | [], _ => false
  | s :: older, (n, category) =>
    if n = older.length then
      (s.registry category).items.any (·.1 == key)
        || (s.registry category).outer.any (has key older)
    else has key older (n, category)

end Scopes

end Graph

/-! ## Graphs -/

/-- Definitions with their numbers, the types that were built, and the scopes, of which number zero
is the schema's own. -/
structure Graph where
  valueTypes : List ValueType := []
  structs : List Graph.StructNode := []
  attributes : List Graph.AttributeNode := []
  elements : List Graph.ElementNode := []
  types : List Graph.TypeNode := []
  scopes : Graph.Scopes := [{}]
  root : Option Nat := none
deriving DecidableEq, Repr

namespace Graph

/-- What has a number, or an error if nothing has it. -/
def numbered (number : Nat) : Option α → Except Error α
  | some a => .ok a
  | none => .error (.lacking (.number number))

def scopeAt (g : Graph) (n : Nat) : Except Error ScopeNode := numbered n (Scopes.at? g.scopes n)

def structAt (g : Graph) (d : Nat) : Except Error StructNode := numbered d g.structs[d]?

def attributeAt (g : Graph) (a : Nat) : Except Error AttributeNode := numbered a g.attributes[a]?

def elementAt (g : Graph) (e : Nat) : Except Error ElementNode := numbered e g.elements[e]?

/-- How many definitions of the kind there are. -/
def count (g : Graph) : Category → Nat
  | .valueType => g.valueTypes.length
  | .struct => g.structs.length
  | .attribute => g.attributes.length
  | .element => g.elements.length

/-- A definition of the kind has the number. -/
def checkNumber (g : Graph) (category : Category) (x : Nat) : Except Error Unit :=
  if x < g.count category then .ok () else .error (.lacking (.number x))

/-! ## Lookups -/

/-- The scope itself registers the key. -/
def hasLocal (g : Graph) (n : Nat) (category : Category) (key : String) : Bool :=
  (Scopes.items g.scopes n category).any (·.1 == key)

def has (g : Graph) (n : Nat) (category : Category) (key : String) : Bool :=
  Scopes.has key g.scopes (n, category)

def find? (g : Graph) (n : Nat) (category : Category) (key : String) : Option Nat :=
  Scopes.find? key g.scopes (n, category)

/-- The definition that the key stands for in the scope, or an error that says where it was looked
for. -/
def find (g : Graph) (n : Nat) (category : Category) (key : String) : Except Error Nat := do
  let s ← g.scopeAt n
  match g.find? n category key with
  | some x => return x
  | none => .error (.undefined (.definition category key s.path))

/-- The scope does not register the key yet. -/
def checkFree (g : Graph) (n : Nat) (category : Category) (key : String) : Except Error Unit := do
  let s ← g.scopeAt n
  if g.hasLocal n category key then .error (.duplicate (.definition category key s.path))

/-- The only element that the schema's own scope registers. -/
def onlyElement (g : Graph) : Except Error Nat := do
  let s ← g.scopeAt 0
  match s.elements.items with
  | [] => .error (.rootUndefined .none)
  | [(_, x)] => return x
  | _ => .error .rootAmbiguous

/-- The names of the elements around what is made in the scope. -/
def around (g : Graph) : Option Nat → Except Error Path
  | none => .ok []
  | some n => do return (← g.scopeAt n).path

/-! ## Types -/

/-- Everything that the link leads to is there. -/
def checkBase (g : Graph) : BaseLink → Except Error Unit
  | .value (.predefined _) => .ok ()
  | .value (.valueType v) => g.checkNumber .valueType v
  | .struct d => g.checkNumber .struct d

def checkOffer (g : Graph) : Offer → Except Error Unit
  | .base b => g.checkBase b
  | .foreign _ => .ok ()

/-- A type is built once. Only then does it matter whether the struct has optional values. -/
def makeType (g : Graph) (offer : Offer) (nullable : Bool) (range : Option Occurrence)
    (arrayNullable : Bool) : Except Error TypeNode := do
  let base ← match offer with
    | .base b => .ok b
    | .foreign shown => .error (.misfit (.dataTypeBase shown))
  match range with
  | none =>
    if arrayNullable then .error (.misfit .nullableArrayWithoutArray)
    else return ⟨base, nullable, none⟩
  | some r =>
    if let .struct d := base then
      let s ← g.structAt d
      if s.hasOptional then .error (.misfit (.arrayOfOptional s.name))
    return ⟨base, nullable, some ⟨r, arrayNullable⟩⟩

/-- A predefined type, else the value type of the name, else the struct of the name. -/
def base? (g : Graph) (n : Nat) (name : String) : Option BaseLink :=
  match Predefined.ofName? name with
  | some p => some (.value (.predefined p))
  | none =>
    match g.find? n .valueType name with
    | some v => some (.value (.valueType v))
    | none => (g.find? n .struct name).map .struct

/-- The type that the text writes, with names as they are seen from the scope. -/
def readType (g : Graph) (n : Nat) (text : String) : Except Error TypeNode := do
  let s ← g.scopeAt n
  let parts ← DataType.readParts text
  let name := String.ofList parts.base
  match g.base? n name with
  | none => .error (.undefined (.dataType name s.path))
  | some b => g.makeType (.base b) parts.nullable parts.range parts.arrayNullable

end Graph

end SmlSchema
