import SmlSchema.Document.Element
import SmlSchema.Schema.Build
import SmlSchema.Computation

/-! # Reading a schema from a document

A schema document has a root element `Schema`, which may name the root element of documents in an
attribute `RootElement`. A scope holds elements `EnumType` (`Name`, `Values`), `Struct` (`Name` and
any number of `Value` lines), `Attribute` (`Name`, `DataType`) and `Element` (`Name`). An element
holds `UnorderedContent` and may hold `Definitions`, which are a scope of its own.
-/

namespace SmlSchema

/-- Why a schema cannot be loaded. Too long a number is not blamed on the schema. -/
inductive LoadError where
  | rejected (cause : Error)
  | tooManyDigits (digits : Scalar.TooManyDigits)
deriving DecidableEq, Repr

def LoadError.message : LoadError → String
  | .rejected cause => "Could not parse schema because " ++ cause.message
  | .tooManyDigits digits => digits.message

namespace Loader

/-- The elements of a scope. -/
def definitionNames : List String := ["EnumType", "Struct", "Attribute", "Element"]

def nameOf (e : Element) : Except Violation String := do
  (← e.requiredAttribute "Name").onlyString

def report (message : String) : Traced Error Unit := .report .loader message

def loadEnum (p : Place) (e : Element) : Traced Error Place := do
  e.assureNoElements
  e.assureAttributeNames ["Name", "Values"]
  let name ← nameOf e
  let labels ← (← e.requiredAttribute "Values").strings
  let scope ← p.scope.addEnum p.path name labels
  report ("EnumType " ++ Text.quoted name ++ " = " ++ Text.bracketed (labels.map Text.quoted)
    ++ " in " ++ p.path.describe)
  return p.withScope scope

/-- A predefined type or a value type; a question mark at the end makes it nullable. -/
def readValueType (p : Place) (text : String) : Except Error (ValueBase × Bool) := do
  let (nullable, cs) := DataType.cutMark text.toList
  let name := String.ofList cs
  let base ← p.found .valueType name (p.valueBase? name)
  return (base, nullable)

/-- A line with a name, `Required` or `Optional`, and a type. -/
def loadStructValue (p : Place) (s : Struct) (a : Attribute) : Except Error Struct := do
  a.assureValueCount 3
  let name ← a.string 0
  let occurrence ← Attribute.label ["Required", "Optional"] a 1 false
  let (base, nullable) ← readValueType p (← a.string 2)
  return s.push (← s.newValue name (occurrence == some 1) (.value base) nullable)

def loadStructValues (p : Place) (s : Struct) (lines : List Attribute) : Except Error Struct :=
  lines.foldlM (loadStructValue p) s

def loadStruct (p : Place) (e : Element) : Traced Error Place := do
  e.assureNoElements
  e.assureAttributeNames ["Name", "Value"]
  let name ← nameOf e
  let scope ← p.scope.add p.path .struct name
  let s ← loadStructValues p { name } (e.attributes "Value")
  report ("Struct " ++ Text.quoted name ++ s!" with {s.values.length} value(s) in "
    ++ p.path.describe)
  return p.withScope (scope.modifyStruct name fun _ => s)

def loadAttribute (p : Place) (e : Element) : Except Error Place := do
  e.assureNoElements
  e.assureAttributeNames ["Name", "DataType"]
  let name ← nameOf e
  let scope ← p.scope.add p.path .attribute name
  let text ← (← e.requiredAttribute "DataType").onlyString
  let t ← DataType.read p text
  return p.withScope (scope.modifyAttribute name fun a => { a with type := some t })

def loadAttributes (p : Place) (es : List Element) : Except Error Place := es.foldlM loadAttribute p

/-- All definitions of a scope but its elements. -/
def loadLeaves (p : Place) (e : Element) : Traced Error Place := do
  let p ← (e.elements "EnumType").foldlM loadEnum p
  let p ← (e.elements "Struct").foldlM loadStruct p
  loadAttributes p (e.elements "Attribute")

/-- The word of an occurrence. -/
def loadOccurrence (a : Attribute) (index : Int) : Except Error Occurrence := do
  let position ← Attribute.label (Occurrence.words.map (·.1)) a index false
  match position.bind fun i => Occurrence.words[i]? with
  | some w => return w.2
  | none => .error (.violation (.noValueAt a.name index))

/-- A line with a name and an occurrence. -/
def loadElementEntry (p : Place) (owner : String) (c : Content) (a : Attribute) :
    Except Error Content := do
  a.assureValueCount 2
  let name ← a.string 0
  let o ← loadOccurrence a 1
  c.addElement p owner name o

/-- A line with a name, an occurrence and maybe a type; with one, the attribute is defined here. -/
def loadAttributeEntry (p : Place) (owner : String) (c : Content) (a : Attribute) :
    Except Error Content := do
  a.assureValueBounds 2 (some 3)
  let name ← a.string 0
  let o ← loadOccurrence a 1
  if a.valueCount = 2 then c.addAttribute p owner name o
  else
    let t ← DataType.read p (← a.string 2)
    c.addInline owner { name, type := some t } o

/-- The content of the element `owner`, as it is seen from its scope. -/
def loadContent (p : Place) (owner : String) (e : Element) : Except Error Content := do
  e.assureChoice ["UnorderedContent", "ListContent"]
  if e.hasElement "ListContent" then .error (.unsupported (.content .list owner))
  let content ← e.requiredElement "UnorderedContent"
  content.assureNoElements
  content.assureAttributeNames ["Element", "Attribute"]
  let c ← (content.attributes "Element").foldlM (loadElementEntry p owner) (.unordered [] [])
  (content.attributes "Attribute").foldlM (loadAttributeEntry p owner) c

mutual

/-- The elements among the nodes, one after the other. -/
def loadElements (p : Place) : List Node → Traced Error Place
  | [] => pure p
  | n :: ns => do
    let p ← loadElement p n
    loadElements p ns
termination_by structural ns => ns

/-- An element is known by its name before its own scope and content are read. -/
def loadElement (p : Place) : Node → Traced Error Place
  | .attribute _ => pure p
  | .element tag nodes =>
    if !Text.sameName tag "Element" then pure p
    else do
      let e : Element := ⟨tag, nodes⟩
      let name ← nameOf e
      let scope ← p.scope.add p.path .element name
      let p := p.withScope scope
      report ("ElementDef " ++ Text.quoted name ++ " in " ++ p.path.describe)
      e.assureElementNames ["Definitions", "UnorderedContent", "ListContent"]
      e.assureAttributeNames ["Name"]
      let _ ← e.optionalElement "Definitions"
      let inner ← loadInner (.within p name {}) nodes
      let content ← loadContent inner name e
      let finish (d : ElementDef) : ElementDef :=
        { d.withScope inner.scope with content := some content }
      return p.withScope (scope.modifyElement name finish)
termination_by structural n => n

/-- The scope of an element, from its nodes. -/
def loadInner (p : Place) : List Node → Traced Error Place
  | [] => pure p
  | n :: ns => do
    let p ← loadDefinitions p n
    loadInner p ns
termination_by structural ns => ns

def loadDefinitions (p : Place) : Node → Traced Error Place
  | .attribute _ => pure p
  | .element tag nodes =>
    if !Text.sameName tag "Definitions" then pure p
    else do
      let e : Element := ⟨tag, nodes⟩
      e.assureElementNames definitionNames
      e.assureNoAttributes
      let p ← loadLeaves p e
      loadElements p nodes
termination_by structural n => n

end

/-- The root is the named top-level element, or the only one if none is named. -/
def loadRoot (e : Element) (s : Schema) : Except Error Schema := do
  match ← e.optionalAttribute "RootElement" with
  | none => s.setDefaultRoot
  | some a =>
    let name ← a.onlyString
    if (s.definitions.names .element).contains name then s.setRoot name
    else .error (.rootUndefined (.notTopLevel name))

def loadSchema (e : Element) : Traced Error Schema := do
  e.assureName "Schema"
  e.assureElementNames definitionNames
  e.assureAttributeNames ["RootElement"]
  let p ← loadLeaves (.top {}) e
  let p ← loadElements p e.nodes
  let s ← loadRoot e { definitions := p.scope }
  report ("root element is " ++ Text.quoted (← s.rootName))
  return s

/-- Every failure but too long a number is reported and becomes one error. -/
def wrap (t : Traced Error Schema) : Traced LoadError Schema :=
  match t.result with
  | .ok s => ⟨t.log, .ok s⟩
  | .error (.tooManyDigits digits) => ⟨t.log, .error (.tooManyDigits digits)⟩
  | .error e => ⟨t.log ++ [⟨.loader, "load failed: " ++ e.message⟩], .error (.rejected e)⟩

end Loader

namespace Schema

def ofDocument (d : Document) : Traced LoadError Schema := Loader.wrap (Loader.loadSchema d.root)

def parse (text : String) : Traced LoadError Schema :=
  Loader.wrap do
    let d ← (Document.parse text).mapError Error.unreadable
    Loader.loadSchema d.root

end Schema

end SmlSchema
