import SmlSchema.Schema.Error

/-! # Scopes in their surroundings

A place is a scope together with those around it. A name is looked up from the inside to the
outside, and a changed scope can be put back into the whole.
-/

namespace SmlSchema

/-- A scope together with the scopes around it. -/
inductive Place where
  | top (scope : Scope)
  | within (outer : Place) (name : String) (scope : Scope)

namespace Place

def scope : Place → Scope
  | .top s => s
  | .within _ _ s => s

def path : Place → Path
  | .top _ => []
  | .within outer name _ => name :: outer.path

def withScope (s : Scope) : Place → Place
  | .top _ => .top s
  | .within outer name _ => .within outer name s

@[simp] theorem scope_withScope (s : Scope) (p : Place) : (p.withScope s).scope = s := by
  cases p <;> rfl

@[simp] theorem path_withScope (s : Scope) (p : Place) : (p.withScope s).path = p.path := by
  cases p <;> rfl

/-- The outermost scope after this one has become `s`. -/
def rebuild : Place → Scope → Scope
  | .top _, s => s
  | .within outer name _, s => outer.rebuild (outer.scope.modifyElement name (·.withScope s))

/-- What the nearest scope gives, looking from the inside to the outside. -/
def nearest? (f : Scope → Option α) : Place → Option (Place × α)
  | .top s => (f s).map (.top s, ·)
  | .within outer name s =>
    match f s with
    | some a => some (.within outer name s, a)
    | none => outer.nearest? f

def valueType? (p : Place) (name : String) : Option (Place × ValueType) :=
  p.nearest? (·.valueType? name)

def struct? (p : Place) (name : String) : Option (Place × Struct) := p.nearest? (·.struct? name)

def attribute? (p : Place) (name : String) : Option (Place × AttributeDef) :=
  p.nearest? (·.attribute? name)

def element? (p : Place) (name : String) : Option (Place × ElementDef) :=
  p.nearest? (·.element? name)

/-- What was found under the name, or an error that says where it was looked for. -/
def found (p : Place) (category : Category) (name : String) : Option α → Except Error α
  | some a => .ok a
  | none => .error (.undefined (.definition category name p.path))

def getValueType (p : Place) (name : String) : Except Error (Place × ValueType) :=
  p.found .valueType name (p.valueType? name)

def getStruct (p : Place) (name : String) : Except Error (Place × Struct) :=
  p.found .struct name (p.struct? name)

def getAttribute (p : Place) (name : String) : Except Error (Place × AttributeDef) :=
  p.found .attribute name (p.attribute? name)

def getElement (p : Place) (name : String) : Except Error (Place × ElementDef) :=
  p.found .element name (p.element? name)

/-- The scope of the element that the name stands for. -/
def enter (p : Place) (name : String) : Except Error Place := do
  let (q, e) ← p.getElement name
  return .within q name e.scope

end Place

namespace Schema

/-- The scope reached by entering the named elements one after the other. -/
def place (s : Schema) (route : List String) : Except Error Place :=
  route.foldlM Place.enter (.top s.definitions)

/-- The scope at a path. -/
def scopeAt? (s : Schema) : Path → Option Scope
  | [] => some s.definitions
  | name :: outer => ((s.scopeAt? outer).bind (·.element? name)).map (·.scope)

def rootName (s : Schema) : Except Error String :=
  match s.root with
  | some name => .ok name
  | none => .error (.rootUndefined .notSet)

end Schema

end SmlSchema
