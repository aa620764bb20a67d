import SmlSchema.Line.Token
import SmlSchema.Text.Quoted

/-! # Documents: trees of elements and attributes

An element has a name and holds elements and attributes in order. An attribute has a name and a row
of cells. Names are compared without regard to letter case.
-/

namespace SmlSchema

open Line (Cell)

/-- A named line of values; it has at least one. -/
structure Attribute where
  name : String
  values : List Cell
  values_ne_nil : values ≠ []
deriving DecidableEq, Repr

inductive Node where
  | element (name : String) (nodes : List Node)
  | attribute (a : Attribute)
deriving Repr

structure Element where
  name : String
  nodes : List Node := []
deriving Repr

/-- A root element and the keyword that closes its elements. -/
structure Document where
  root : Element
  endKeyword : Cell := some "End"
deriving Repr

namespace Node

def name : Node → String
  | .element n _ => n
  | .attribute a => a.name

def element? : Node → Option Element
  | .element n nodes => some ⟨n, nodes⟩
  | .attribute _ => none

def attribute? : Node → Option Attribute
  | .element _ _ => none
  | .attribute a => some a

end Node

namespace Element

def toNode (e : Element) : Node := .element e.name e.nodes

@[simp] theorem element?_toNode (e : Element) : e.toNode.element? = some e := rfl

/-- The child elements in order. -/
def children (e : Element) : List Element := e.nodes.filterMap Node.element?

/-- The attributes in order. -/
def ownAttributes (e : Element) : List Attribute := e.nodes.filterMap Node.attribute?

end Element

end SmlSchema
