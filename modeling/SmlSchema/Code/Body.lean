import SmlSchema.Code.Basic
import SmlSchema.Schema.Error

/-! # Bodies of operations and declared types, built step by step

A body is a list of entries: steps, and marks where blocks are opened and closed. It can be written
once all its blocks are closed. A declared type takes variants if it is an enumeration, fields if it
is a record, and operations in either case.
-/

namespace SmlSchema.Code

/-- An entry of a body. -/
inductive Entry where
  | step (s : Step)
  | openBlock (h : Header)
  | closeBlock
deriving Repr

/-- The entries in the order in which they were added, and the number of blocks that are open. -/
structure Body where
  entries : List Entry := []
  depth : Nat := 0
deriving Repr

namespace Body

def isClosed (b : Body) : Bool := b.depth == 0

def addStep (b : Body) (s : Step) : Body := { b with entries := b.entries ++ [.step s] }

def openBlock (b : Body) (h : Header) : Body := ⟨b.entries ++ [.openBlock h], b.depth + 1⟩

def closeBlock (b : Body) : Except BuildFlaw Body :=
  if b.depth = 0 then .error .nothingOpen else .ok ⟨b.entries ++ [.closeBlock], b.depth - 1⟩

end Body

structure Method where
  signature : Signature
  body : Body
deriving Repr

/-- A type of the module; an empty description counts as none. -/
structure DeclaredType where
  name : String
  shape : Shape
  doc : String := ""
  methods : List Method := []
deriving Repr

namespace DeclaredType

def newEnum (name : String) (doc : String := "") : DeclaredType :=
  { name, shape := .enumeration [], doc }

def newRecord (name : String) (doc : String := "") : DeclaredType :=
  { name, shape := .record [], doc }

def addVariant (d : DeclaredType) (v : Variant) : Except BuildFlaw DeclaredType :=
  match d.shape with
  | .enumeration vs => .ok { d with shape := .enumeration (vs ++ [v]) }
  | .record _ => .error (.notEnumeration d.name)

def addField (d : DeclaredType) (f : Field) : Except BuildFlaw DeclaredType :=
  match d.shape with
  | .record fs => .ok { d with shape := .record (fs ++ [f]) }
  | .enumeration _ => .error (.notRecord d.name)

def addMethod (d : DeclaredType) (s : Signature) (b : Body) : DeclaredType :=
  { d with methods := d.methods ++ [⟨s, b⟩] }

def describe (d : DeclaredType) : String :=
  "DeclaredType(name=" ++ Text.quoted d.name ++ ", kind=" ++ Text.quoted d.shape.word ++ ")"

end DeclaredType

/-- The types of a module in order, and the module that holds the document library. -/
structure Module where
  runtime : String := "sml_document"
  types : List DeclaredType := []
deriving Repr

end SmlSchema.Code
