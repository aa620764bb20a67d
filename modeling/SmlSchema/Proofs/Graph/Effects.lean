import SmlSchema.Proofs.Graph.Atomicity
import SmlSchema.Proofs.Graph.Scopes
import SmlSchema.Proofs.Schema.Build

/-! # What a call does

A call that succeeds changes the graph in one of a few ways, each under its own conditions. Whatever
is kept by these changes is kept by every run of calls, since a call that fails changes nothing.
-/

namespace SmlSchema.Graph

open Attempt

variable {g t : Graph} {n x : Nat} {category : Category} {key : String}

/-- The scope is there and does not register the key. -/
structure Free (g : Graph) (n : Nat) (category : Category) (key : String) : Prop where
  defined : n < g.scopes.length
  free : Scopes.own? g.scopes n category key = none

/-- What the call makes of the graph if it succeeds, with the number of what it has made or
registered. -/
inductive Effect (g : Graph) : Call → Option Nat → Graph → Prop
  | newEnum {name : String} {labels : List String} :
      Effect g (.newEnum name labels) (some g.valueTypes.length)
        { g with valueTypes := g.valueTypes ++ [.enum name labels] }
  | newReserved {name : String} {kind : ReservedKind} :
      Effect g (.newReserved name kind) (some g.valueTypes.length)
        { g with valueTypes := g.valueTypes ++ [.reserved name kind] }
  | newStruct {name : String} :
      Effect g (.newStruct name) (some g.structs.length)
        { g with structs := g.structs ++ [{ name }] }
  | newAttribute {name : String} :
      Effect g (.newAttribute name) (some g.attributes.length)
        { g with attributes := g.attributes ++ [{ name }] }
  | newElement {name : String} {outer : Option Nat} {path : Path}
      (older : ∀ m, outer = some m → m < g.scopes.length) :
      Effect g (.newElement name outer) (some g.elements.length) (g.withElement name path outer)
  | addStruct {n : Nat} {name : String} (free : g.Free n .struct name) :
      Effect g (.add n .struct name) (some g.structs.length)
        (withItem { g with structs := g.structs ++ [{ name }] } n .struct name g.structs.length)
  | addAttribute {n : Nat} {name : String} (free : g.Free n .attribute name) :
      Effect g (.add n .attribute name) (some g.attributes.length)
        (withItem { g with attributes := g.attributes ++ [{ name }] } n .attribute name
          g.attributes.length)
  | addElement {n : Nat} {name : String} {path : Path} (free : g.Free n .element name) :
      Effect g (.add n .element name) (some g.elements.length)
        ((g.withElement name path (some n)).withItem n .element name g.elements.length)
  | addExisting {n x : Nat} {category : Category} {key : String}
      (defined : x < g.count category) (free : g.Free n category key) :
      Effect g (.addExisting n category key x) (some x) (g.withItem n category key x)
  | addEnum {n : Nat} {name : String} {labels : List String} (free : g.Free n .valueType name) :
      Effect g (.addEnum n name labels) (some g.valueTypes.length)
        (withItem { g with valueTypes := g.valueTypes ++ [.enum name labels] } n .valueType name
          g.valueTypes.length)
  | addValue {d : Nat} {name : String} {optional nullable : Bool} {base : Offer} {s : StructNode}
      {v : ValueNode} (defined : g.structs[d]? = some s)
      (made : s.newValue name optional base nullable = .ok v) :
      Effect g (.addValue d name optional base nullable) none
        { g with structs := g.structs.set d (s.push v) }
  | buildType {base : Offer} {nullable arrayNullable : Bool} {range : Option Occurrence}
      {type : TypeNode} (made : g.makeType base nullable range arrayNullable = .ok type) :
      Effect g (.buildType base nullable range arrayNullable) (some g.types.length)
        { g with types := g.types ++ [type] }
  | buildTypeOf {n : Nat} {text : String} {type : TypeNode} (made : g.readType n text = .ok type) :
      Effect g (.buildTypeOf n text) (some g.types.length) { g with types := g.types ++ [type] }
  | assignType {a k : Nat} {node : AttributeNode} {type : TypeNode}
      (defined : g.attributes[a]? = some node) (built : g.types[k]? = some type)
      (unset : node.type = none) :
      Effect g (.assignType a k) none
        { g with attributes := g.attributes.set a { node with type := some type } }
  | setContent {e : Nat} {node : ElementNode} (defined : g.elements[e]? = some node)
      (unset : node.content = none) :
      Effect g (.setContent e none) none (g.withContent e node {})
  | useElement {e x : Nat} {name : String} {o : Occurrence} {node : ElementNode} {c : ContentNode}
      (defined : g.elements[e]? = some node) (content : node.content = some c)
      (found : g.find? node.scope .element name = some x) :
      Effect g (.addElement e name o) none
        (g.withContent e node { c with elements := c.elements ++ [⟨x, o⟩] })
  | useAttribute {e x : Nat} {name : String} {o : Occurrence} {node : ElementNode} {c : ContentNode}
      (defined : g.elements[e]? = some node) (content : node.content = some c)
      (found : g.find? node.scope .attribute name = some x) :
      Effect g (.addAttribute e name o) none
        (g.withContent e node { c with attributes := c.attributes ++ [⟨x, o, false⟩] })
  | useInline {e a : Nat} {o : Occurrence} {node : ElementNode} {c : ContentNode}
      (defined : g.elements[e]? = some node) (content : node.content = some c) :
      Effect g (.addInline e a o) none
        (g.withContent e node { c with attributes := c.attributes ++ [⟨a, o, true⟩] })
  | setRoot {x : Nat} {name : String} (found : g.find? 0 .element name = some x) :
      Effect g (.setRoot name) none { g with root := some x }
  | setDefaultRoot {x : Nat} (found : g.onlyElement = .ok x) :
      Effect g .setDefaultRoot none { g with root := some x }

/-! ## The parts of calls -/

theorem numbered_eq_ok {α : Type} {k : Nat} {a : Option α} {b : α} :
    numbered k a = .ok b ↔ a = some b := by
  cases a with
  | none => simp [numbered]
  | some a => simp [numbered]

/-- The check passes if the kind has so many definitions. -/
theorem checkNumber_eq_ok {u : Unit} : g.checkNumber category x = .ok u ↔ x < g.count category := by
  unfold checkNumber
  split <;> simp_all

/-- A type is set where there is none yet. -/
theorem AttributeNode.setType_eq_ok {a b : AttributeNode} {type : TypeNode} :
    a.setType type = .ok b ↔ a.type = none ∧ b = { a with type := some type } := by
  unfold setType
  cases h : a.type with
  | none => simp [eq_comm]
  | some _ => simp

/-- Content is set where there is none yet, and only unordered content. -/
theorem ElementNode.newContent_eq_ok {e : ElementNode} {kind : Option ReservedContent}
    {c : ContentNode} : e.newContent kind = .ok c ↔ e.content = none ∧ kind = none ∧ c = {} := by
  unfold newContent
  cases h : e.content with
  | none => cases kind <;> simp [eq_comm]
  | some _ => simp

/-- An attribute is added behind those that are there. -/
theorem ContentNode.addEntry_eq_ok {owner name : String} {entry : Except Error AttributeUse}
    {c c' : ContentNode} (h : c.addEntry g owner name entry = .ok c') :
    ∃ use, entry = .ok use ∧ c' = { c with attributes := c.attributes ++ [use] } := by
  unfold addEntry at h
  split at h
  · cases h
  · obtain ⟨use, huse, h⟩ := bind_eq_ok.mp h
    cases h
    exact ⟨use, huse, rfl⟩

theorem lt_of_scopeAt {s : ScopeNode} (h : g.scopeAt n = .ok s) : n < g.scopes.length :=
  Scopes.lt_of_at? (numbered_eq_ok.mp h)

/-- A scope has a key if it registers something under it. -/
theorem hasLocal_eq (g : Graph) (n : Nat) (category : Category) (key : String) :
    g.hasLocal n category key = (Scopes.own? g.scopes n category key).isSome := by
  rw [hasLocal, Scopes.own?, Scopes.isSome_lookup]

/-- The check passes if the scope is there and the key is free. -/
theorem checkFree_eq_ok {u : Unit} :
    g.checkFree n category key = .ok u ↔ g.Free n category key := by
  rw [checkFree, bind_eq_ok]
  constructor
  · rintro ⟨s, hs, h⟩
    refine ⟨lt_of_scopeAt hs, ?_⟩
    split at h
    · cases h
    · rename_i hlocal
      rw [hasLocal_eq] at hlocal
      simpa using hlocal
  · rintro ⟨hdefined, hfree⟩
    obtain ⟨s, hs⟩ := Scopes.exists_at? hdefined
    refine ⟨s, numbered_eq_ok.mpr hs, ?_⟩
    rw [hasLocal_eq, hfree]
    rfl

/-- What is found with an error message is found without one. -/
theorem find?_of_find (h : g.find n category key = .ok x) : g.find? n category key = some x := by
  obtain ⟨s, -, h⟩ := bind_eq_ok.mp h
  split at h
  · rename_i y hy
    cases h
    exact hy
  · cases h

theorem older_of_around {outer : Option Nat} {path : Path} (h : g.around outer = .ok path) :
    ∀ m, outer = some m → m < g.scopes.length := by
  rintro m rfl
  obtain ⟨s, hs, -⟩ := bind_eq_ok.mp h
  exact lt_of_scopeAt hs

/-- A step that only looks at the graph and checks something. -/
theorem on_check_eq_ok {α β : Type} {check : Graph → Except Error α} {f : Graph → α → Work β}
    {b : β} :
    Attempt.on (do let g ← get; let a ← liftM (check g); f g a) g = (.ok b, t) ↔
      ∃ a, check g = .ok a ∧ Attempt.on (f g a) g = (.ok b, t) := by
  rw [on_bind_of_ok (on_get g), on_lift_bind_eq_ok]

/-- Only an element that has content can change it, to what the change gives. -/
theorem changeContent_eq_ok {e : Nat} {part : String}
    {change : Graph → ElementNode → ContentNode → Except Error ContentNode} {u : Unit}
    (h : Attempt.on (changeContent e part change) g = (.ok u, t)) :
    ∃ node c c', g.elements[e]? = some node ∧ node.content = some c ∧ change g node c = .ok c' ∧
      t = g.withContent e node c' := by
  rw [changeContent, on_bind_of_ok (on_get g), on_lift_bind_eq_ok] at h
  obtain ⟨node, hnode, h⟩ := h
  obtain ⟨c, hc, h⟩ := on_lift_bind_eq_ok.mp h
  obtain ⟨c', hc', h⟩ := on_lift_bind_eq_ok.mp h
  cases h
  refine ⟨node, c, c', numbered_eq_ok.mp hnode, ?_, hc', rfl⟩
  rw [ElementNode.contentFor] at hc
  split at hc
  · cases hc
    assumption
  · cases hc

/-- A call that succeeds has one of the effects. -/
theorem Call.effect_of_ok {c : Call} {r : Option Nat} (h : c.perform.on g = (.ok r, t)) :
    Effect g c r t := by
  cases c with
  | newEnum name labels =>
      obtain ⟨v, hv, h⟩ := on_lift_bind_eq_ok.mp h
      cases h
      obtain ⟨-, -, rfl⟩ := ValueType.makeEnum_eq_ok.mp hv
      exact .newEnum
  | newReserved name kind =>
      cases h
      exact .newReserved
  | newStruct name =>
      cases h
      exact .newStruct
  | newAttribute name =>
      cases h
      exact .newAttribute
  | newElement name outer =>
      obtain ⟨x, u, hx, h⟩ := on_bind_eq_ok.mp h
      cases h
      obtain ⟨path, hpath, hx⟩ := on_check_eq_ok.mp hx
      cases hx
      exact .newElement (older_of_around hpath)
  | add n category name =>
      obtain ⟨x, u, hx, h⟩ := on_bind_eq_ok.mp h
      cases h
      obtain ⟨_, hfree, hx⟩ := on_check_eq_ok.mp hx
      rw [checkFree_eq_ok] at hfree
      cases category with
      | valueType => cases hx
      | struct =>
          cases hx
          exact .addStruct hfree
      | «attribute» =>
          cases hx
          exact .addAttribute hfree
      | element =>
          obtain ⟨y, v, hy, hx⟩ := on_bind_eq_ok.mp hx
          cases hx
          obtain ⟨path, -, hy⟩ := on_check_eq_ok.mp hy
          cases hy
          exact .addElement hfree
  | addExisting n category key x =>
      obtain ⟨y, u, hx, h⟩ := on_bind_eq_ok.mp h
      cases h
      obtain ⟨_, hnumber, hx⟩ := on_check_eq_ok.mp hx
      obtain ⟨_, hfree, hx⟩ := on_check_eq_ok.mp hx
      cases hx
      exact .addExisting (checkNumber_eq_ok.mp hnumber) (checkFree_eq_ok.mp hfree)
  | addEnum n name labels =>
      obtain ⟨x, u, hx, h⟩ := on_bind_eq_ok.mp h
      cases h
      obtain ⟨v, hv, hx⟩ := on_lift_bind_eq_ok.mp hx
      obtain ⟨_, hfree, hx⟩ := on_check_eq_ok.mp hx
      cases hx
      obtain ⟨-, -, rfl⟩ := ValueType.makeEnum_eq_ok.mp hv
      exact .addEnum (checkFree_eq_ok.mp hfree)
  | addValue d name optional base nullable =>
      obtain ⟨_, u, hx, h⟩ := on_bind_eq_ok.mp h
      cases h
      obtain ⟨s, hs, hx⟩ := on_check_eq_ok.mp hx
      obtain ⟨_, -, hx⟩ := on_lift_bind_eq_ok.mp hx
      obtain ⟨v, hv, hx⟩ := on_lift_bind_eq_ok.mp hx
      cases hx
      exact .addValue (numbered_eq_ok.mp hs) hv
  | buildType base nullable range arrayNullable =>
      obtain ⟨x, u, hx, h⟩ := on_bind_eq_ok.mp h
      cases h
      obtain ⟨_, -, hx⟩ := on_check_eq_ok.mp hx
      obtain ⟨type, htype, hx⟩ := on_lift_bind_eq_ok.mp hx
      cases hx
      exact .buildType htype
  | buildTypeOf n text =>
      obtain ⟨x, u, hx, h⟩ := on_bind_eq_ok.mp h
      cases h
      obtain ⟨type, htype, hx⟩ := on_check_eq_ok.mp hx
      cases hx
      exact .buildTypeOf htype
  | assignType a k =>
      obtain ⟨_, u, hx, h⟩ := on_bind_eq_ok.mp h
      cases h
      obtain ⟨node, hnode, hx⟩ := on_check_eq_ok.mp hx
      obtain ⟨type, htype, hx⟩ := on_lift_bind_eq_ok.mp hx
      obtain ⟨new, hnew, hx⟩ := on_lift_bind_eq_ok.mp hx
      cases hx
      obtain ⟨hunset, rfl⟩ := AttributeNode.setType_eq_ok.mp hnew
      exact .assignType (numbered_eq_ok.mp hnode) (numbered_eq_ok.mp htype) hunset
  | setContent e kind =>
      obtain ⟨_, u, hx, h⟩ := on_bind_eq_ok.mp h
      cases h
      obtain ⟨node, hnode, hx⟩ := on_check_eq_ok.mp hx
      obtain ⟨new, hnew, hx⟩ := on_lift_bind_eq_ok.mp hx
      cases hx
      obtain ⟨hunset, rfl, rfl⟩ := ElementNode.newContent_eq_ok.mp hnew
      exact .setContent (numbered_eq_ok.mp hnode) hunset
  | addElement e name o =>
      obtain ⟨_, u, hx, h⟩ := on_bind_eq_ok.mp h
      cases h
      obtain ⟨node, c, c', hnode, hc, hc', rfl⟩ := changeContent_eq_ok hx
      split at hc'
      · cases hc'
      · obtain ⟨x, hfound, hc'⟩ := bind_eq_ok.mp hc'
        cases hc'
        exact .useElement hnode hc (find?_of_find hfound)
  | addAttribute e name o =>
      obtain ⟨_, u, hx, h⟩ := on_bind_eq_ok.mp h
      cases h
      obtain ⟨node, c, c', hnode, hc, hc', rfl⟩ := changeContent_eq_ok hx
      obtain ⟨use, huse, rfl⟩ := ContentNode.addEntry_eq_ok hc'
      obtain ⟨x, hfound, huse⟩ := bind_eq_ok.mp huse
      cases huse
      exact .useAttribute hnode hc (find?_of_find hfound)
  | addInline e a o =>
      obtain ⟨_, u, hx, h⟩ := on_bind_eq_ok.mp h
      cases h
      obtain ⟨_, -, hx⟩ := on_check_eq_ok.mp hx
      obtain ⟨node, c, c', hnode, hc, hc', rfl⟩ := changeContent_eq_ok hx
      obtain ⟨use, huse, rfl⟩ := ContentNode.addEntry_eq_ok hc'
      cases huse
      exact .useInline hnode hc
  | setRoot name =>
      obtain ⟨_, u, hx, h⟩ := on_bind_eq_ok.mp h
      cases h
      obtain ⟨x, hfound, hx⟩ := on_check_eq_ok.mp hx
      cases hx
      exact .setRoot (find?_of_find hfound)
  | setDefaultRoot =>
      obtain ⟨_, u, hx, h⟩ := on_bind_eq_ok.mp h
      cases h
      obtain ⟨x, hfound, hx⟩ := on_check_eq_ok.mp hx
      cases hx
      exact .setDefaultRoot hfound

/-! ## Runs -/

/-- A call either fails and changes nothing or has an effect. -/
theorem Call.effect (c : Call) (g : Graph) :
    (∃ e, c.perform.on g = (.error e, g)) ∨
      ∃ r t, c.perform.on g = (.ok r, t) ∧ Effect g c r t := by
  rcases h : c.perform.on g with ⟨e | r, t⟩
  · obtain rfl := c.atomic g e t h
    exact .inl ⟨e, rfl⟩
  · exact .inr ⟨r, t, rfl, Call.effect_of_ok h⟩

/-- What every effect keeps holds after every run. -/
theorem runAll_invariant {P : Graph → Prop} (cs : List Call) (hg : P g)
    (step : ∀ c ∈ cs, ∀ g r t, P g → Effect g c r t → P t) : P (g.runAll cs) := by
  induction cs generalizing g with
  | nil => exact hg
  | cons c cs ih =>
      rw [runAll_cons]
      refine ih ?_ fun d hd => step d (List.mem_cons_of_mem c hd)
      obtain ⟨e, he⟩ | ⟨r, t, ht, heffect⟩ := c.effect g
      · rwa [he]
      · rw [ht]
        exact step c List.mem_cons_self g r t hg heffect

end SmlSchema.Graph
