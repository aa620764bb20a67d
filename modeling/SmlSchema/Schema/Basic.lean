import SmlSchema.Predefined
import SmlSchema.Schema.Occurrence
import SmlSchema.Text.Quoted

/-! # Schemas

A schema describes documents. It is a tree of scopes: the outermost scope and the scope of every
element. A scope defines value types, structs, attributes and elements, and what it defines can be
named in it and in the scopes inside. A reference holds the path of the scope that it was found in,
so that it stays the same when an inner scope defines the name later.
-/

namespace SmlSchema

/-- The place of a scope: the names of the elements around it, from the inside to the outside. The
empty path is the schema's own scope. -/
abbrev Path := List String

def Path.describe : Path → String
  | [] => "schema"
  | name :: _ => s!"ElementDef \"{name}\""

/-- The four kinds of definitions of a scope. -/
inductive Category where
  | valueType
  | struct
  | attribute
  | element
deriving DecidableEq, Repr

def Category.word : Category → String
  | .valueType => "ValueTypeDef"
  | .struct => "StructDef"
  | .attribute => "AttributeDef"
  | .element => "ElementDef"

/-- Kinds of value types that are reserved but have no meaning yet. -/
inductive ReservedKind where
  | string
  | number
deriving DecidableEq, Repr

def ReservedKind.word : ReservedKind → String
  | .string => "string"
  | .number => "number"

inductive ValueType where
  | enum (name : String) (labels : List String)
  | reserved (name : String) (kind : ReservedKind)
deriving DecidableEq, Repr

def ValueType.name : ValueType → String
  | .enum n _ => n
  | .reserved n _ => n

/-- The type of a single value. A value type is named together with the scope that defines it. -/
inductive ValueBase where
  | predefined (p : Predefined)
  | valueType (scope : Path) (name : String)
deriving DecidableEq, Repr

/-- The type of the items of an attribute. -/
inductive Base where
  | value (b : ValueBase)
  | struct (scope : Path) (name : String)
deriving DecidableEq, Repr

def ValueBase.name : ValueBase → String
  | .predefined p => p.name
  | .valueType _ n => n

def Base.name : Base → String
  | .value b => b.name
  | .struct _ n => n

structure StructValue where
  name : String
  optional : Bool
  base : ValueBase
  nullable : Bool
deriving DecidableEq, Repr

structure Struct where
  name : String
  values : List StructValue := []
deriving DecidableEq, Repr

/-- The size of an array, and whether the array as a whole may be null. -/
structure ArrayShape where
  range : Occurrence
  nullable : Bool
deriving DecidableEq, Repr

structure DataType where
  base : Base
  nullable : Bool
  array : Option ArrayShape
deriving DecidableEq, Repr

/-- An attribute; its type may still have to be set. -/
structure AttributeDef where
  name : String
  type : Option DataType := none
deriving DecidableEq, Repr

/-- An attribute of an element: one that a scope defines, or one defined on the spot. -/
inductive AttributeEntry where
  | defined (scope : Path) (name : String) (occurrence : Occurrence)
  | inline (definition : AttributeDef) (occurrence : Occurrence)
deriving DecidableEq, Repr

/-- A child element, named together with the scope that defines it. -/
structure ElementEntry where
  scope : Path
  name : String
  occurrence : Occurrence
deriving DecidableEq, Repr

/-- Kinds of content that are reserved but have no meaning yet. -/
inductive ReservedContent where
  | ordered
  | list
deriving DecidableEq, Repr

inductive Content where
  | unordered (attributes : List AttributeEntry) (elements : List ElementEntry)
  | reserved (kind : ReservedContent)
deriving DecidableEq, Repr

/-- An element with the definitions of its own scope. -/
structure ElementDef where
  name : String
  valueTypes : List ValueType := []
  structs : List Struct := []
  attributes : List AttributeDef := []
  elements : List ElementDef := []
  content : Option Content := none

/-- Definitions in the order in which they were made. -/
structure Scope where
  valueTypes : List ValueType := []
  structs : List Struct := []
  attributes : List AttributeDef := []
  elements : List ElementDef := []

/-- The outermost scope, and the name of the element in it that documents start with. -/
structure Schema where
  definitions : Scope := {}
  root : Option String := none

/-! ## Types -/

def StructValue.typeText (v : StructValue) : String :=
  v.base.name ++ if v.nullable then "?" else ""

namespace Struct

def hasOptional (s : Struct) : Bool := s.values.any (·.optional)

def requiredCount (s : Struct) : Nat := (s.values.filter (!·.optional)).length

end Struct

namespace DataType

def arrayRange (t : DataType) : Option Occurrence := t.array.map (·.range)

def arrayNullable (t : DataType) : Bool := t.array.any (·.nullable)

/-- One number for a fixed size, else two, where `N` stands for no limit. -/
def sizeText (o : Occurrence) : String :=
  toString o.min ++
    if o.isFixed then "" else ".." ++ (o.max.map toString).getD "N"

def text (t : DataType) : String :=
  t.base.name ++ (if t.nullable then "?" else "")
    ++ match t.array with
      | none => ""
      | some a => "[" ++ sizeText a.range ++ "]" ++ if a.nullable then "?" else ""

end DataType

namespace AttributeEntry

def name : AttributeEntry → String
  | .defined _ n _ => n
  | .inline d _ => d.name

def occurrence : AttributeEntry → Occurrence
  | .defined _ _ o => o
  | .inline _ o => o

end AttributeEntry

def ReservedContent.word : ReservedContent → String
  | .ordered => "ordered"
  | .list => "list"

/-! ## Scopes -/

def ElementDef.scope (e : ElementDef) : Scope :=
  ⟨e.valueTypes, e.structs, e.attributes, e.elements⟩

def ElementDef.withScope (e : ElementDef) (s : Scope) : ElementDef :=
  ⟨e.name, s.valueTypes, s.structs, s.attributes, s.elements, e.content⟩

namespace Scope

def isEmpty (s : Scope) : Bool :=
  s.valueTypes.isEmpty && s.structs.isEmpty && s.attributes.isEmpty && s.elements.isEmpty

/-- The names of one kind of definitions in the order in which they were made. -/
def names (s : Scope) : Category → List String
  | .valueType => s.valueTypes.map (·.name)
  | .struct => s.structs.map (·.name)
  | .attribute => s.attributes.map (·.name)
  | .element => s.elements.map (·.name)

def valueType? (s : Scope) (name : String) : Option ValueType :=
  s.valueTypes.find? (·.name == name)

def struct? (s : Scope) (name : String) : Option Struct := s.structs.find? (·.name == name)

def attribute? (s : Scope) (name : String) : Option AttributeDef :=
  s.attributes.find? (·.name == name)

def element? (s : Scope) (name : String) : Option ElementDef := s.elements.find? (·.name == name)

def modifyStruct (s : Scope) (name : String) (f : Struct → Struct) : Scope :=
  { s with structs := s.structs.map fun d => if d.name = name then f d else d }

def modifyAttribute (s : Scope) (name : String) (f : AttributeDef → AttributeDef) : Scope :=
  { s with attributes := s.attributes.map fun d => if d.name = name then f d else d }

def modifyElement (s : Scope) (name : String) (f : ElementDef → ElementDef) : Scope :=
  { s with elements := s.elements.map fun d => if d.name = name then f d else d }

end Scope

mutual

/-- The scope of an element and all scopes inside it, outermost first. -/
def ElementDef.scopesFrom (outer : Path) : ElementDef → List (Path × Scope)
  | ⟨name, valueTypes, structs, attributes, elements, _⟩ =>
    (name :: outer, ⟨valueTypes, structs, attributes, elements⟩)
      :: ElementDef.scopesOfAll (name :: outer) elements
termination_by structural e => e

def ElementDef.scopesOfAll (outer : Path) : List ElementDef → List (Path × Scope)
  | [] => []
  | e :: es => e.scopesFrom outer ++ ElementDef.scopesOfAll outer es
termination_by structural es => es

end

/-- The scope at the path and all scopes inside it, each before those inside it. -/
def Scope.scopesFrom (s : Scope) (path : Path) : List (Path × Scope) :=
  (path, s) :: ElementDef.scopesOfAll path s.elements

/-- All scopes of the schema. -/
def Schema.scopes (s : Schema) : List (Path × Scope) := s.definitions.scopesFrom []

/-! ## Descriptions -/

def flagText (b : Bool) : String := if b then "True" else "False"

/-- The name alone for a reserved kind. -/
def ValueType.describe : ValueType → String
  | .enum name labels =>
    "EnumTypeDef(name=" ++ Text.quoted name ++ ", values="
      ++ Text.bracketed (labels.map Text.quoted) ++ ")"
  | .reserved name _ => name

def StructValue.describe (v : StructValue) : String :=
  "StructValue(name=" ++ Text.quoted v.name ++ ", type=" ++ Text.quoted v.typeText
    ++ ", optional=" ++ flagText v.optional ++ ")"

def Struct.describe (s : Struct) : String :=
  "StructDef(name=" ++ Text.quoted s.name ++ ", values="
    ++ Text.bracketed (s.values.map StructValue.describe) ++ ")"

def DataType.describe (t : DataType) : String :=
  "AttributeDataType(" ++ Text.quoted t.text ++ ")"

def AttributeDef.describe (a : AttributeDef) : String :=
  "AttributeDef(name=" ++ Text.quoted a.name ++ ", data_type="
    ++ (a.type.map DataType.describe).getD "None" ++ ")"

def describeElement (name : String) : String := "ElementDef(name=" ++ Text.quoted name ++ ")"

def Scope.describe (path : Path) : String := "Definitions(" ++ path.describe ++ ")"

end SmlSchema
