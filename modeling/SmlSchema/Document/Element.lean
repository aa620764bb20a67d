import SmlSchema.Document.Attribute

/-! # Questions about the content of an element

Nodes are found by name, and the number of nodes of a name, or their names, can be demanded.
-/

namespace SmlSchema.Element

def hasName (names : List String) (name : String) : Bool := names.any (Text.sameName · name)

/-- The child elements of the name. -/
def elements (e : Element) (name : String) : List Element :=
  e.children.filter fun c => Text.sameName c.name name

/-- The attributes of the name. -/
def attributes (e : Element) (name : String) : List Attribute :=
  e.ownAttributes.filter fun a => Text.sameName a.name name

def hasElement (e : Element) (name : String) : Bool := !(e.elements name).isEmpty

def hasAttribute (e : Element) (name : String) : Bool := !(e.attributes name).isEmpty

/-- Exactly one node was found. -/
def one (e : Element) (kind : NodeKind) (name : String) : List α → Except Violation α
  | [x] => .ok x
  | xs => .error (.notOne e.name kind name xs.length)

/-- At most one node was found. -/
def atMostOne (e : Element) (kind : NodeKind) (name : String) : List α → Except Violation (Option α)
  | [] => .ok none
  | [x] => .ok (some x)
  | xs => .error (.moreThanOne e.name kind name xs.length)

/-- Some nodes were found. -/
def oneOrMore (e : Element) (kind : NodeKind) (name : String) : List α → Except Violation (List α)
  | [] => .error (.missing e.name kind name)
  | xs => .ok xs

def requiredElement (e : Element) (name : String) : Except Violation Element :=
  e.one .element name (e.elements name)

def optionalElement (e : Element) (name : String) : Except Violation (Option Element) :=
  e.atMostOne .element name (e.elements name)

def oneOrMoreElements (e : Element) (name : String) : Except Violation (List Element) :=
  e.oneOrMore .element name (e.elements name)

def requiredAttribute (e : Element) (name : String) : Except Violation Attribute :=
  e.one .attribute name (e.attributes name)

def optionalAttribute (e : Element) (name : String) : Except Violation (Option Attribute) :=
  e.atMostOne .attribute name (e.attributes name)

def oneOrMoreAttributes (e : Element) (name : String) : Except Violation (List Attribute) :=
  e.oneOrMore .attribute name (e.attributes name)

def assureName (e : Element) (name : String) : Except Violation Unit :=
  if Text.sameName e.name name then .ok () else .error (.wrongName name e.name)

/-- The first of the names that is not allowed. -/
def assureNames (e : Element) (kind : NodeKind) (allowed found : List String) :
    Except Violation Unit :=
  match found.find? fun n => !hasName allowed n with
  | some n => .error (.unexpected e.name kind n)
  | none => .ok ()

def assureElementNames (e : Element) (names : List String) : Except Violation Unit :=
  e.assureNames .element names (e.children.map (·.name))

def assureAttributeNames (e : Element) (names : List String) : Except Violation Unit :=
  e.assureNames .attribute names (e.ownAttributes.map (·.name))

def assureNoElements (e : Element) : Except Violation Unit :=
  if e.children.isEmpty then .ok () else .error (.forbidden e.name .element)

def assureNoAttributes (e : Element) : Except Violation Unit :=
  if e.ownAttributes.isEmpty then .ok () else .error (.forbidden e.name .attribute)

/-- One child element out of the names, or none if that is allowed. -/
def assureChoice (e : Element) (names : List String) (canBeNone : Bool := false) :
    Except Violation Unit :=
  match (e.children.filter fun c => hasName names c.name).length with
  | 0 => if canBeNone then .ok () else .error (.noChoice e.name names)
  | 1 => .ok ()
  | _ => .error (.severalChoices e.name names)

def describe (e : Element) : String :=
  "SmlElement(name=" ++ Text.quoted e.name ++ s!", nodes={e.nodes.length})"

end SmlSchema.Element

namespace SmlSchema.Node

/-- Why positions lead to no node. -/
inductive Astray where
  | outside
  | inAttribute (part : String)
deriving DecidableEq, Repr

def Astray.message : Astray → String
  | .outside => "list index out of range"
  | .inAttribute part => s!"'SmlAttribute' object has no attribute '{part}'"

/-- The index of a position among `count` nodes; a negative position counts from the end. -/
def indexOf? (count : Nat) (position : Int) : Option Nat :=
  let k := if position < 0 then position + count else position
  if 0 ≤ k && k < count then some k.toNat else none

/-- The node at a position, with its index. -/
def pick (nodes : List Node) (position : Int) : Except Astray (Nat × Node) :=
  match (indexOf? nodes.length position).bind fun i => nodes[i]?.map (i, ·) with
  | some found => .ok found
  | none => .error .outside

/-- The node at the end of the positions, each counted among the nodes of the one before. -/
def descend (n : Node) : List Int → Except Astray Node
  | [] => .ok n
  | i :: is =>
    match n with
    | .element _ nodes => do (← pick nodes i).2.descend is
    | .attribute _ => .error (.inAttribute "nodes")

/-- Put a new last node under the element at the end of the positions, as its part `part`. -/
def addAt (new : Node) (part : String) : List Int → Node → Except Astray Node
  | [], .element name nodes => .ok (.element name (nodes ++ [new]))
  | [], .attribute _ => .error (.inAttribute part)
  | i :: is, .element name nodes => do
    let (k, n) ← pick nodes i
    return .element name (nodes.set k (← addAt new part is n))
  | _ :: _, .attribute _ => .error (.inAttribute "nodes")

def describe : Node → String
  | .element name nodes => Element.describe ⟨name, nodes⟩
  | .attribute a => a.describe

end SmlSchema.Node
