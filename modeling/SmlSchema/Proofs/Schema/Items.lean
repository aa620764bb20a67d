import SmlSchema.Proofs.Schema.Effects

/-! # Definitions one by one

The definitions of a scope are items, whatever their kind. A command adds one item to one scope, or
it changes those items of one scope that have a certain kind and name.
-/

namespace SmlSchema

/-- A definition of any kind. The scope of an element is no part of it. -/
inductive Item where
  | valueType (v : ValueType)
  | struct (r : Struct)
  | attribute (a : AttributeDef)
  | element (name : String) (content : Option Content)

namespace Item

def name : Item → String
  | .valueType v => v.name
  | .struct r => r.name
  | .attribute a => a.name
  | .element name _ => name

/-- The item with one more value, if it is a struct. -/
def push (v : StructValue) : Item → Item
  | .struct r => .struct (r.push v)
  | i => i

end Item

def ElementDef.item (e : ElementDef) : Item := .element e.name e.content

/-! ## One scope -/

namespace Scope

variable {d d' : Scope} {c : Category} {name : String}

/-- The definitions of one kind in the order in which they were made. -/
def items (d : Scope) : Category → List Item
  | .valueType => d.valueTypes.map .valueType
  | .struct => d.structs.map .struct
  | .attribute => d.attributes.map .attribute
  | .element => d.elements.map (·.item)

def item? (d : Scope) (c : Category) (name : String) : Option Item :=
  (d.items c).find? (·.name == name)

/-- The items of a scope have its names. -/
theorem map_name_items (d : Scope) (c : Category) : (d.items c).map (·.name) = d.names c := by
  cases c <;> exact List.map_map

/-- What is inside the elements does not matter. -/
@[simp] theorem items_shallow (d : Scope) (c : Category) : d.shallow.items c = d.items c := by
  cases c with
  | element => exact List.map_map
  | _ => rfl

@[simp] theorem item?_shallow (d : Scope) (c : Category) (name : String) :
    d.shallow.item? c name = d.item? c name := by
  rw [item?, item?, items_shallow]

@[simp] theorem items_empty (c : Category) : items {} c = [] := by
  cases c <;> rfl

/-- Each kind has its own way to look up a name. -/
theorem item?_valueType (d : Scope) (name : String) :
    d.item? .valueType name = (d.valueType? name).map .valueType := List.find?_map

theorem item?_struct (d : Scope) (name : String) :
    d.item? .struct name = (d.struct? name).map .struct := List.find?_map

theorem item?_attribute (d : Scope) (name : String) :
    d.item? .attribute name = (d.attribute? name).map .attribute := List.find?_map

theorem item?_element (d : Scope) (name : String) :
    d.item? .element name = (d.element? name).map (·.item) := List.find?_map

/-- The second scope has one more item, after those that the first one has. -/
def Gains (d d' : Scope) (c : Category) (new : Item) : Prop :=
  ∀ k, d'.items k = d.items k ++ if k = c then [new] else []

/-- In the second scope the items of the kind and name have changed. -/
def Alters (d d' : Scope) (c : Category) (name : String) (f : Item → Item) : Prop :=
  ∀ k, d'.items k =
    if k = c then (d.items k).map fun i => if i.name = name then f i else i else d.items k

/-- Each kind gains in its own list. -/
theorem gains_valueType (d : Scope) (v : ValueType) :
    d.shallow.Gains { d with valueTypes := d.valueTypes ++ [v] }.shallow .valueType
      (.valueType v) := by
  intro k
  rw [items_shallow, items_shallow]
  cases k <;> simp [items]

theorem gains_struct (d : Scope) (r : Struct) :
    d.shallow.Gains { d with structs := d.structs ++ [r] }.shallow .struct (.struct r) := by
  intro k
  rw [items_shallow, items_shallow]
  cases k <;> simp [items]

theorem gains_attribute (d : Scope) (a : AttributeDef) :
    d.shallow.Gains { d with attributes := d.attributes ++ [a] }.shallow .attribute
      (.attribute a) := by
  intro k
  rw [items_shallow, items_shallow]
  cases k <;> simp [items]

theorem gains_element (d : Scope) (e : ElementDef) :
    d.Gains { d with elements := d.elements ++ [e] } .element e.item := by
  intro k
  cases k <;> simp [items]

/-- Each kind is changed in its own list. -/
theorem alters_modifyStruct (d : Scope) (name : String) (v : StructValue) :
    d.shallow.Alters (d.modifyStruct name (·.push v)).shallow .struct name (.push v) := by
  intro k
  rw [items_shallow, items_shallow]
  cases k with
  | struct =>
      rw [if_pos rfl, items, items, modifyStruct, List.map_map, List.map_map]
      exact List.map_congr_left fun r _ => apply_ite Item.struct (r.name = name) (r.push v) r
  | _ => rfl

theorem alters_modifyAttribute (d : Scope) (name : String) (a : AttributeDef) :
    d.shallow.Alters (d.modifyAttribute name fun _ => a).shallow .attribute name
      fun _ => .attribute a := by
  intro k
  rw [items_shallow, items_shallow]
  cases k with
  | «attribute» =>
      rw [if_pos rfl, items, items, modifyAttribute, List.map_map, List.map_map]
      exact List.map_congr_left fun b _ => apply_ite Item.attribute (b.name = name) a b
  | _ => rfl

theorem alters_modifyElement (d : Scope) (name : String) (e : ElementDef) :
    d.Alters (d.modifyElement name fun _ => e) .element name fun _ => e.item := by
  intro k
  cases k with
  | element =>
      rw [if_pos rfl, items, items, modifyElement, List.map_map, List.map_map]
      exact List.map_congr_left fun f _ => apply_ite ElementDef.item (f.name = name) e f
  | _ => rfl

end Scope

/-! ## A scope and those around it -/

/-- Looking for an item is looking for a definition of its kind. -/
theorem Place.nearest?_map (p : Place) (f : Scope → Option α) (k : α → β) :
    p.nearest? (fun d => (f d).map k) = (p.nearest? f).map fun r => (r.1, k r.2) := by
  induction p with
  | top d =>
      rw [nearest?, nearest?, Option.map_map, Option.map_map]
      rfl
  | within outer name d ih =>
      rw [nearest?, nearest?]
      cases f d with
      | none => exact ih
      | some a => rfl

namespace Schema

variable {s : Schema} {path : Path} {name : String}

/-- A place holds the scope at its path. -/
theorem level?_of_placeAt? {p : Place} (h : s.placeAt? path = some p) :
    s.level? path = some p.scope.shallow :=
  level?_eq_some.mpr ⟨_, scopeAt?_of_placeAt? h, rfl⟩

/-- Inside a scope there are the scopes of its elements. -/
theorem exists_level?_cons :
    (∃ d, s.level? (name :: path) = some d) ↔
      ∃ d, s.level? path = some d ∧ name ∈ d.names .element := by
  constructor
  · rintro ⟨d, hd⟩
    obtain ⟨e, he, -⟩ := level?_eq_some.mp hd
    obtain ⟨f, hf, -⟩ := Option.map_eq_some_iff.mp he
    obtain ⟨outer, houter, hf⟩ := Option.bind_eq_some_iff.mp hf
    refine ⟨outer.shallow, level?_eq_some.mpr ⟨outer, houter, rfl⟩, ?_⟩
    rw [Scope.names_shallow]
    exact Scope.exists_element?.mp ⟨f, hf⟩
  · rintro ⟨d, hd, hname⟩
    obtain ⟨outer, houter, rfl⟩ := level?_eq_some.mp hd
    rw [Scope.names_shallow] at hname
    obtain ⟨f, hf⟩ := Scope.exists_element?.mpr hname
    refine ⟨f.scope.shallow, level?_eq_some.mpr ⟨f.scope, ?_, rfl⟩⟩
    rw [scopeAt?, houter, Option.bind_some, hf, Option.map_some]

end Schema

end SmlSchema
