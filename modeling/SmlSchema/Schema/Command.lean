import SmlSchema.Computation
import SmlSchema.Schema.Build

/-! # Commands that change a schema

A command does one action in one scope of a schema. It is carried out step by step, and a step that
fails does not take back what the steps before it have changed.
-/

namespace SmlSchema

/-- A base given by its name, which is looked up from a scope, or something foreign. -/
inductive BaseName where
  | predefined (p : Predefined)
  | valueType (name : String)
  | struct (name : String)
  | foreign (shown : String)
deriving DecidableEq, Repr

def BaseName.resolve (p : Place) : BaseName → Except Error Candidate
  | .predefined t => .ok (.value (.predefined t))
  | .valueType name => do
    let (q, _) ← p.getValueType name
    return .value (.valueType q.path name)
  | .struct name => do
    let (q, s) ← p.getStruct name
    return .struct q.path s
  | .foreign shown => .ok (.foreign shown)

/-- The two bounds of a range. -/
abbrev Bounds := Option Int × Option Int

/-- The range between the bounds, if there are bounds. -/
def Bounds.range? : Option Bounds → Except RangeFlaw (Option Occurrence)
  | none => .ok none
  | some (min, max) => some <$> Occurrence.make min max

/-- The type that the text writes, if there is a text. -/
def DataType.read? (p : Place) : Option String → Except Error (Option DataType)
  | none => .ok none
  | some text => some <$> DataType.read p text

/-- What is done in a scope. -/
inductive Action where
  | addEnum (name : String) (labels : List String)
  | addReserved (name : String) (kind : ReservedKind)
  | add (category : Category) (name : String)
  | addStructValue (struct name : String) (optional : Bool) (base : BaseName) (nullable : Bool)
  | setType (name : String) (base : BaseName) (nullable : Bool) (range : Option Bounds)
      (arrayNullable : Bool)
  | readType (text : String)
  | setContent (kind : Option ReservedContent)
  | addElementEntry (name : String) (range : Bounds)
  | addAttributeEntry (name : String) (range : Bounds)
  | addInlineEntry (name : String) (type : Option String) (range : Bounds)
  | setRoot (name : String)
  | setDefaultRoot
deriving Repr

/-- An action in the scope reached by a route. -/
structure Command where
  route : List String := []
  action : Action
deriving Repr

/-- What a command has made. -/
inductive Product where
  | valueType (v : ValueType)
  | name (name : String)
  | structValue (value : StructValue) (struct : Struct)
  | dataType (t : DataType)
  | content
  | elementEntry (name : String) (occurrence : Occurrence)
  | attributeEntry (definition : AttributeDef) (occurrence : Occurrence) (inline : Bool)
deriving Repr

/-- The schema in which the scope at the place has become `scope`. -/
def Schema.replace (s : Schema) (p : Place) (scope : Scope) : Schema :=
  { s with definitions := p.rebuild scope }

/-- A computation that changes a schema. What it has changed before it fails stays. -/
abbrev Building := Attempt Schema Error

namespace Place

/-- Put a scope in place of the one at the place. -/
def put (p : Place) (scope : Scope) : Building Unit := modify (·.replace p scope)

/-- Change the element that owns the scope, by its part `part`. -/
def changeOwner (p : Place) (part : String) (change : ElementDef → Except Error ElementDef) :
    Building Unit :=
  match p with
  | .top _ => throw (.lacking (.owner part))
  | .within outer name _ => do
    let (_, e) ← outer.getElement name
    let changed ← change e
    outer.put (outer.scope.modifyElement name fun _ => changed)

/-- Change the content of the element that owns the scope, by its part `part`. -/
def changeContent (p : Place) (part : String) (change : String → Content → Except Error Content) :
    Building Unit :=
  p.changeOwner "content" fun e =>
    match e.content with
    | none => .error (.lacking (.content part))
    | some c => do return { e with content := some (← change e.name c) }

end Place

/-- Do the action in the scope at the place. -/
def Action.perform (p : Place) : Action → Building Product
  | .addEnum name labels => do
    p.put (← p.scope.addEnum p.path name labels)
    return .valueType (.enum name labels)
  | .addReserved name kind => do
    p.put (← p.scope.addValueType p.path (.reserved name kind))
    return .name name
  | .add category name => do
    p.put (← p.scope.add p.path category name)
    return .name name
  | .addStructValue struct name optional base nullable => do
    let (q, d) ← p.getStruct struct
    let v ← d.newValue name optional (← base.resolve p) nullable
    q.put (q.scope.modifyStruct struct (·.push v))
    return .structValue v (d.push v)
  | .setType name base nullable range arrayNullable => do
    let c ← base.resolve p
    let range ← Bounds.range? range
    let t ← DataType.make c nullable range arrayNullable
    let (q, a) ← p.getAttribute name
    let a ← a.setType t
    q.put (q.scope.modifyAttribute name fun _ => a)
    return .dataType t
  | .readType text => do return .dataType (← DataType.read p text)
  | .setContent kind => do
    p.changeOwner "set_content" (·.setContent kind)
    return .content
  | .addElementEntry name (min, max) => do
    let o ← Occurrence.make min max
    p.changeContent "add_element" fun owner c => c.addElement p owner name o
    return .elementEntry name o
  | .addAttributeEntry name (min, max) => do
    let o ← Occurrence.make min max
    p.changeContent "add_attribute" fun owner c => c.addAttribute p owner name o
    let (_, a) ← p.getAttribute name
    return .attributeEntry a o false
  | .addInlineEntry name type (min, max) => do
    let type ← DataType.read? p type
    let o ← Occurrence.make min max
    let a : AttributeDef := { name, type }
    p.changeContent "add_inline_attribute" fun owner c => c.addInline owner a o
    return .attributeEntry a o true
  | .setRoot name => do
    set (← (← get).setRoot name)
    return .name name
  | .setDefaultRoot => do
    set (← (← get).setDefaultRoot)
    return .name (← (← get).rootName)

/-- The schema after the action and what it has made, if it succeeds. -/
def Action.run (s : Schema) (p : Place) (a : Action) : Except Error (Schema × Product) :=
  (a.perform p).result s

/-- Find the scope, then do the action in it. -/
def Command.perform (c : Command) : Building Product := do
  c.action.perform (← (← get).place c.route)

/-- The schema after the command and what it has made, if it succeeds. -/
def Command.run (c : Command) (s : Schema) : Except Error (Schema × Product) := c.perform.result s

/-- The schema after the commands, whether they succeed or fail. -/
def Schema.runAll (s : Schema) (cs : List Command) : Schema :=
  cs.foldl (fun s c => (c.perform.on s).2) s

end SmlSchema
