import Mathlib.Data.List.Forall2
import SmlSchema.Graph.Command
import SmlSchema.Proofs.Graph.Lookup
import SmlSchema.Proofs.Schema.Items

/-! # Graphs that show a schema

A schema names the definitions that it refers to, and a graph has their numbers. A graph shows a
schema if every scope of the graph stands for the scope of the schema at its path and registers the
definitions of that scope under their names, in their order. What a name stands for can then be
found in the one or the other, with the same result or the same error.
-/

namespace SmlSchema

/-- Both computations give a result, and the results are related, or both fail for the same
reason. -/
inductive Alike (R : α → β → Prop) : Except Error α → Except Error β → Prop where
  | ok {a : α} {b : β} (h : R a b) : Alike R (.ok a) (.ok b)
  | error (e : Error) : Alike R (.error e) (.error e)

namespace Alike

variable {R : α → β → Prop} {S : γ → δ → Prop} {x : Except Error α} {y : Except Error β}

/-- Computations stay alike if their first parts are and each pair of their values goes on alike. -/
theorem bind_eq {f : α → Except Error γ} {k : β → Except Error δ} (h : Alike R x y)
    (hfk : ∀ a b, x = .ok a → y = .ok b → R a b → Alike S (f a) (k b)) :
    Alike S (x >>= f) (y >>= k) := by
  cases h with
  | ok h => exact hfk _ _ rfl rfl h
  | error e => exact .error e

theorem bind {f : α → Except Error γ} {k : β → Except Error δ} (h : Alike R x y)
    (hfk : ∀ a b, R a b → Alike S (f a) (k b)) : Alike S (x >>= f) (y >>= k) :=
  h.bind_eq fun a b _ _ => hfk a b

/-- Steps that are alike, one after the other. -/
theorem foldlM {f : α → γ → Except Error α} {k : β → γ → Except Error β}
    (hstep : ∀ a b c, R a b → Alike R (f a c) (k b c)) (cs : List γ) {a : α} {b : β} (h : R a b) :
    Alike R (cs.foldlM f a) (cs.foldlM k b) := by
  induction cs generalizing a b with
  | nil => exact .ok h
  | cons c cs ih =>
      rw [List.foldlM_cons, List.foldlM_cons]
      exact (hstep a b c h).bind fun _ _ => ih

end Alike

namespace Graph

/-! ## Definitions -/

/-- Where a scope lies: its path, the element that owns it and the scope around it. -/
structure Position where
  path : Path
  owner : Option Nat
  outer : Option Nat

def ScopeNode.position (s : ScopeNode) : Position := ⟨s.path, s.owner, s.outer⟩

def position? (g : Graph) (n : Nat) : Option Position :=
  (Scopes.at? g.scopes n).map (·.position)

/-- A scope with the path registers the definition under the name. -/
def Named (g : Graph) (path : Path) (c : Category) (name : String) (x : Nat) : Prop :=
  ∃ n r, g.position? n = some r ∧ r.path = path ∧ g.Registers n c name x

/-- No scope registers the attribute. -/
def Loose (g : Graph) (a : Nat) : Prop := ∀ n key, ¬ g.Registers n .attribute key a

inductive ShowsValue (g : Graph) : ValueLink → ValueBase → Prop
  | predefined (p : Predefined) : ShowsValue g (.predefined p) (.predefined p)
  | valueType {v : Nat} {path : Path} {name : String} (named : g.Named path .valueType name v) :
      ShowsValue g (.valueType v) (.valueType path name)

inductive ShowsBase (g : Graph) : BaseLink → Base → Prop
  | value {v : ValueLink} {b : ValueBase} (shows : g.ShowsValue v b) :
      ShowsBase g (.value v) (.value b)
  | struct {d : Nat} {path : Path} {name : String} (named : g.Named path .struct name d) :
      ShowsBase g (.struct d) (.struct path name)

structure ShowsField (g : Graph) (v : ValueNode) (w : StructValue) : Prop where
  name : v.name = w.name
  optional : v.optional = w.optional
  base : g.ShowsValue v.base w.base
  nullable : v.nullable = w.nullable

structure ShowsStruct (g : Graph) (d : StructNode) (r : Struct) : Prop where
  name : d.name = r.name
  values : List.Forall₂ g.ShowsField d.values r.values

structure ShowsType (g : Graph) (t : TypeNode) (u : DataType) : Prop where
  base : g.ShowsBase t.base u.base
  nullable : t.nullable = u.nullable
  array : t.array = u.array

structure ShowsAttribute (g : Graph) (a : AttributeNode) (b : AttributeDef) : Prop where
  name : a.name = b.name
  type : Option.Rel g.ShowsType a.type b.type

/-- An entry refers to a definition of a scope, or it has one of its own. -/
inductive ShowsUse (g : Graph) : AttributeUse → AttributeEntry → Prop
  | defined {a : Nat} {path : Path} {name : String} {o : Occurrence}
      (named : g.Named path .attribute name a) : ShowsUse g ⟨a, o, false⟩ (.defined path name o)
  | inline {a : Nat} {v : AttributeNode} {b : AttributeDef} {o : Occurrence} (loose : g.Loose a)
      (node : g.attributes[a]? = some v) (shows : g.ShowsAttribute v b) :
      ShowsUse g ⟨a, o, true⟩ (.inline b o)

inductive ShowsChild (g : Graph) : ElementUse → ElementEntry → Prop
  | mk {e : Nat} {path : Path} {name : String} {o : Occurrence}
      (named : g.Named path .element name e) : ShowsChild g ⟨e, o⟩ ⟨path, name, o⟩

inductive ShowsContent (g : Graph) : ContentNode → Content → Prop
  | unordered {us : List AttributeUse} {es : List ElementUse} {entries : List AttributeEntry}
      {children : List ElementEntry} (attributes : List.Forall₂ g.ShowsUse us entries)
      (elements : List.Forall₂ g.ShowsChild es children) :
      ShowsContent g ⟨us, es⟩ (.unordered entries children)

/-- What has the number shows the item, which is defined in the scope `n` with the path. The scope
of an element lies inside that scope. -/
inductive ShowsItem (g : Graph) (path : Path) (n : Nat) : Category → Nat → Item → Prop
  | valueType {x : Nat} {v : ValueType} (node : g.valueTypes[x]? = some v) :
      ShowsItem g path n .valueType x (.valueType v)
  | struct {x : Nat} {d : StructNode} {r : Struct} (node : g.structs[x]? = some d)
      (shows : g.ShowsStruct d r) : ShowsItem g path n .struct x (.struct r)
  | attribute {x : Nat} {a : AttributeNode} {b : AttributeDef} (node : g.attributes[x]? = some a)
      (shows : g.ShowsAttribute a b) : ShowsItem g path n .attribute x (.attribute b)
  | element {x : Nat} {e : ElementNode} {tag : String} {content : Option Content}
      (node : g.elements[x]? = some e) (name : e.name = tag)
      (shows : Option.Rel g.ShowsContent e.content content)
      (inside : g.position? e.scope = some ⟨tag :: path, some x, some n⟩) :
      ShowsItem g path n .element x (.element tag content)

/-- The definition is registered under the name of the item that it shows. -/
structure ShowsEntry (g : Graph) (path : Path) (n : Nat) (c : Category) (p : String × Nat)
    (i : Item) : Prop where
  key : p.1 = i.name
  shows : g.ShowsItem path n c p.2 i

/-- The scope is that of an element which the scope around it registers. -/
inductive Inside (g : Graph) (n : Nat) : Position → Prop
  | mk {e m : Nat} {v : ElementNode} {q : Position} {name : String}
      (node : g.elements[e]? = some v) (scope : v.scope = n) (outer : g.position? m = some q)
      (registers : g.Registers m .element name e) : Inside g n ⟨name :: q.path, some e, some m⟩

/-- The graph shows the schema. -/
structure Shows (g : Graph) (s : Schema) : Prop where
  wired : Scopes.Wired g.scopes
  top : g.position? 0 = some ⟨[], none, none⟩
  inside : ∀ n r, g.position? n = some r → n ≠ 0 → g.Inside n r
  levels : ∀ n r, g.position? n = some r → ∃ d, s.level? r.path = some d ∧
    ∀ c, List.Forall₂ (g.ShowsEntry r.path n c) (Scopes.items g.scopes n c) (d.items c)
  once : ∀ n m c key name x, g.Registers n c key x → g.Registers m c name x → n = m ∧ key = name
  root : Option.Rel (fun x name => g.Registers 0 .element name x) g.root s.root

/-- The scope of the graph stands for the place of the schema. -/
structure At (g : Graph) (s : Schema) (n : Nat) (p : Place) : Prop where
  placed : s.placeAt? p.path = some p
  position : ∃ r, g.position? n = some r ∧ r.path = p.path

/-- What is offered as a base shows the candidate. -/
inductive ShowsOffer (g : Graph) : Offer → Candidate → Prop
  | value {v : ValueLink} {b : ValueBase} (shows : g.ShowsValue v b) :
      ShowsOffer g (.base (.value v)) (.value b)
  | struct {d : Nat} {path : Path} {v : StructNode} {r : Struct}
      (named : g.Named path .struct r.name d) (node : g.structs[d]? = some v)
      (shows : g.ShowsStruct v r) : ShowsOffer g (.base (.struct d)) (.struct path r)
  | foreign (shown : String) : ShowsOffer g (.foreign shown) (.foreign shown)

/-- The definition of the graph that the name stands for shows the item, which is defined at the
place. -/
def Finds (g : Graph) (s : Schema) (c : Category) (name : String) (x : Nat) (p : Place) (i : Item) :
    Prop :=
  i.name = name ∧ ∃ n, g.At s n p ∧ g.Registers n c name x ∧ g.ShowsItem p.path n c x i

/-! ## Scopes -/

variable {g : Graph} {s : Schema} {n m x : Nat} {r q : Position} {c : Category} {name key : String}
  {d : Scope} {p : Place}

theorem at?_of_position? (h : g.position? n = some r) :
    ∃ node, Scopes.at? g.scopes n = some node ∧ node.position = r := Option.map_eq_some_iff.mp h

/-- What registers something is a scope of the graph. -/
theorem position?_of_registers (h : g.Registers n c key x) : ∃ r, g.position? n = some r := by
  rw [Registers, Scopes.items] at h
  cases hs : Scopes.at? g.scopes n with
  | none =>
      rw [hs] at h
      cases h
  | some node => exact ⟨node.position, by rw [position?, hs, Option.map_some]⟩

/-- A lookup looks in the scope itself first and goes on in the scope around it. -/
theorem find?_eq_or (hw : Scopes.Wired g.scopes) (h : g.position? n = some r) (c : Category)
    (key : String) :
    g.find? n c key =
      (Scopes.own? g.scopes n c key).or (r.outer.bind (g.find? · c key)) := by
  obtain ⟨node, hnode, rfl⟩ := at?_of_position? h
  rw [find?_eq_findSome? hw, path, hw.chain_eq hnode, List.findSome?_cons]
  cases hown : Scopes.own? g.scopes n c key with
  | some x => rfl
  | none =>
      change _ = node.outer.bind _
      cases node.outer with
      | none => rfl
      | some m => exact (find?_eq_findSome? hw m c key).symm

/-- Under each name both lists have something or both have nothing. -/
theorem rel_find? {R : Nat → Item → Prop} {ps : List (String × Nat)} {is : List Item}
    (h : List.Forall₂ (fun p i => p.1 = i.name ∧ R p.2 i) ps is) (name : String) :
    Option.Rel (fun x i => i.name = name ∧ R x i) (ps.lookup name)
      (is.find? (·.name == name)) := by
  induction h with
  | nil => exact .none
  | @cons p i ps is hp _ ih =>
      obtain ⟨key, x⟩ := p
      obtain ⟨rfl, hx⟩ := hp
      rw [List.lookup_cons, List.find?_cons, BEq.comm]
      cases hname : i.name == name with
      | true => exact .some ⟨eq_of_beq hname, hx⟩
      | false => exact ih

theorem rel_of_map {R : α → β → Prop} {a : Option α} {b : Option γ} {f : γ → β}
    (h : Option.Rel R a (b.map f)) : Option.Rel (fun x y => R x (f y)) a b := by
  cases b with
  | none =>
      cases h
      exact .none
  | some y =>
      cases h with
      | some hx => exact .some hx

/-- A name that stands for nothing gives the same error. -/
theorem At.found {R : Nat → α → Prop} {a : Option α} (hp : g.At s n p)
    (hrel : Option.Rel R (g.find? n c name) a) : Alike R (g.find n c name) (p.found c name a) := by
  obtain ⟨-, r, hr, hpath⟩ := hp
  obtain ⟨node, hnode, rfl⟩ := at?_of_position? hr
  rw [find, scopeAt, hnode, numbered, ok_bind]
  generalize g.find? n c name = b at hrel ⊢
  cases hrel with
  | none =>
      rw [Place.found, ← hpath]
      exact .error _
  | some hx => exact .ok hx

namespace Shows

/-- The outermost scope has the number zero. -/
theorem eq_zero (h : g.Shows s) (hn : g.position? n = some r) (hr : r.path = []) : n = 0 := by
  by_contra hne
  cases h.inside n r hn hne with
  | mk => cases hr

/-- No two scopes have the same path. -/
theorem position_unique (h : g.Shows s) (hn : g.position? n = some r) (hm : g.position? m = some q)
    (hpath : r.path = q.path) : n = m := by
  generalize hl : r.path = l at hpath
  induction l generalizing n m r q with
  | nil => rw [h.eq_zero hn hl, h.eq_zero hm hpath.symm]
  | cons name l ih =>
      have hn0 : n ≠ 0 := by
        rintro rfl
        cases hn.symm.trans h.top
        cases hl
      have hm0 : m ≠ 0 := by
        rintro rfl
        cases hm.symm.trans h.top
        cases hpath
      -- Both scopes belong to what the same scope registers under the same name.
      cases h.inside n r hn hn0 with
      | mk node scope outer registers =>
          cases h.inside m q hm hm0 with
          | mk node' scope' outer' registers' =>
              cases hl
              obtain ⟨rfl, hpaths⟩ := List.cons_eq_cons.mp hpath
              obtain rfl := ih outer outer' rfl hpaths
              obtain rfl := (lexical_of_wired h.wired
                (Scopes.lt_of_at? (at?_of_position? outer).choose_spec.1) _ _).unique _ _ registers
                registers'
              cases node.symm.trans node'
              rw [← scope, ← scope']

/-- The scope of the schema at the path of a scope of the graph. -/
theorem forall₂ (h : g.Shows s) (hn : g.position? n = some r) (hd : s.level? r.path = some d)
    (c : Category) :
    List.Forall₂ (g.ShowsEntry r.path n c) (Scopes.items g.scopes n c) (d.items c) := by
  obtain ⟨d', hd', hitems⟩ := h.levels n r hn
  cases hd.symm.trans hd'
  exact hitems c

/-- The two scopes have the same names, in the same order. -/
theorem map_fst_items (h : g.Shows s) (hn : g.position? n = some r)
    (hd : s.level? r.path = some d) (c : Category) :
    (Scopes.items g.scopes n c).map Prod.fst = d.names c := by
  rw [← Scope.map_name_items]
  have hitems := h.forall₂ hn hd c
  generalize Scopes.items g.scopes n c = ps at hitems ⊢
  generalize d.items c = is at hitems ⊢
  induction hitems with
  | nil => rfl
  | cons hp _ ih => rw [List.map_cons, List.map_cons, hp.key, ih]

/-- A name is free in both scopes or in none. -/
theorem hasLocal_eq_contains (h : g.Shows s) (hn : g.position? n = some r)
    (hd : s.level? r.path = some d) (c : Category) (name : String) :
    g.hasLocal n c name = (d.names c).contains name := by
  rw [← h.map_fst_items hn hd, hasLocal, List.contains_eq_any_beq, List.any_map]
  exact congrArg _ (funext fun p => BEq.comm)

/-- What a scope of the graph registers is shown as an item of the schema. -/
theorem showsItem_of_registers (h : g.Shows s) (hn : g.position? n = some r)
    (hx : g.Registers n c key x) : ∃ i, i.name = key ∧ g.ShowsItem r.path n c x i := by
  obtain ⟨d, -, hitems⟩ := h.levels n r hn
  have hc := hitems c
  rw [Registers] at hx
  generalize Scopes.items g.scopes n c = ps at hc hx
  generalize d.items c = is at hc
  induction hc with
  | nil => cases hx
  | @cons p i ps is hp _ ih =>
      obtain rfl | hx := List.mem_cons.mp hx
      · exact ⟨i, hp.key.symm, hp.shows⟩
      · exact ih hx

/-- Under a name the two scopes have the same or both have nothing. -/
theorem own? (h : g.Shows s) (hn : g.position? n = some r) (hd : s.level? r.path = some d)
    (c : Category) (name : String) :
    Option.Rel (fun x i => i.name = name ∧ g.Registers n c name x ∧ g.ShowsItem r.path n c x i)
      (Scopes.own? g.scopes n c name) (d.item? c name) := by
  have hrel := rel_find? ((h.forall₂ hn hd c).imp fun _ _ hp => ⟨hp.key, hp.shows⟩) name
  have hx (x : Nat) : (Scopes.items g.scopes n c).lookup name = some x → g.Registers n c name x :=
    h.wired.own?_eq_some.mp
  rw [Scopes.own?, Scope.item?]
  generalize (Scopes.items g.scopes n c).lookup name = a at hrel hx ⊢
  generalize (d.items c).find? _ = b at hrel ⊢
  cases hrel with
  | none => exact .none
  | some hi => exact .some ⟨hi.1, hx _ rfl, hi.2⟩

/-- The scope around, for a place that is not the outermost. -/
theorem outer {outer : Place} (h : g.Shows s) (hp : g.At s n (.within outer name d)) :
    ∃ e m v, g.position? n = some ⟨name :: outer.path, some e, some m⟩ ∧ g.At s m outer ∧
      g.elements[e]? = some v ∧ v.scope = n ∧ g.Registers m .element name e := by
  obtain ⟨hplaced, r, hn, hr⟩ := hp
  obtain ⟨q, e, hq, -, heq⟩ := Schema.placeAt?_cons hplaced
  cases heq
  have hne : n ≠ 0 := by
    rintro rfl
    cases hn.symm.trans h.top
    cases hr
  cases h.inside n r hn hne with
  | @mk e m v q _ node scope around registers =>
      obtain ⟨rfl, hpath⟩ := List.cons_eq_cons.mp hr
      rw [hpath] at hn
      exact ⟨e, m, v, hn, ⟨hq, q, around, hpath⟩, node, scope, registers⟩

/-- What a name stands for in the graph shows what it stands for in the schema. -/
theorem nearest? (h : g.Shows s) (hp : g.At s n p) (c : Category) (name : String) :
    Option.Rel (fun x r => g.Finds s c name x r.1 r.2) (g.find? n c name)
      (p.nearest? (·.item? c name)) := by
  induction p generalizing n with
  | top d =>
      obtain ⟨hplaced, r, hn, hr⟩ := hp
      cases hplaced
      obtain rfl := h.eq_zero hn hr
      have hlevel : s.level? [] = some s.definitions.shallow := rfl
      have hown := h.own? h.top hlevel c name
      rw [Scope.item?_shallow] at hown
      rw [find?_eq_or h.wired h.top, Option.bind_none, Option.or_none, Place.nearest?]
      generalize Scopes.own? g.scopes 0 c name = a at hown ⊢
      generalize s.definitions.item? c name = b at hown ⊢
      cases hown with
      | none => exact .none
      | some hi => exact .some ⟨hi.1, 0, ⟨rfl, _, h.top, rfl⟩, hi.2⟩
  | within outer inner d ih =>
      obtain ⟨e, m, v, hn, hm, -⟩ := h.outer hp
      have hown := h.own? hn (Schema.level?_of_placeAt? hp.placed) c name
      rw [Scope.item?_shallow] at hown
      rw [find?_eq_or h.wired hn, Option.bind_some, Place.nearest?]
      change Option.Rel _ _ (d.item? c name) at hown
      generalize Scopes.own? g.scopes n c name = a at hown ⊢
      generalize d.item? c name = b at hown ⊢
      cases hown with
      | none => exact ih hm
      | some hi => exact .some ⟨hi.1, n, hp, hi.2⟩

/-- Each kind is found in its own way. -/
theorem valueType? (h : g.Shows s) (hp : g.At s n p) (name : String) :
    Option.Rel (fun x r => g.Finds s .valueType name x r.1 (.valueType r.2))
      (g.find? n .valueType name) (p.valueType? name) := by
  have hrel := h.nearest? hp .valueType name
  simp only [Scope.item?_valueType, Place.nearest?_map] at hrel
  exact rel_of_map hrel

theorem struct? (h : g.Shows s) (hp : g.At s n p) (name : String) :
    Option.Rel (fun x r => g.Finds s .struct name x r.1 (.struct r.2))
      (g.find? n .struct name) (p.struct? name) := by
  have hrel := h.nearest? hp .struct name
  simp only [Scope.item?_struct, Place.nearest?_map] at hrel
  exact rel_of_map hrel

theorem attribute? (h : g.Shows s) (hp : g.At s n p) (name : String) :
    Option.Rel (fun x r => g.Finds s .attribute name x r.1 (.attribute r.2))
      (g.find? n .attribute name) (p.attribute? name) := by
  have hrel := h.nearest? hp .attribute name
  simp only [Scope.item?_attribute, Place.nearest?_map] at hrel
  exact rel_of_map hrel

theorem element? (h : g.Shows s) (hp : g.At s n p) (name : String) :
    Option.Rel (fun x r => g.Finds s .element name x r.1 r.2.item)
      (g.find? n .element name) (p.element? name) := by
  have hrel := h.nearest? hp .element name
  simp only [Scope.item?_element, Place.nearest?_map] at hrel
  exact rel_of_map hrel

/-- Entering an element leads to its scope in both. -/
theorem enter (h : g.Shows s) (hp : g.At s n p) (name : String) :
    Alike (g.At s) (g.enter n name) (p.enter name) := by
  refine (hp.found (h.element? hp name)).bind_eq ?_
  rintro x ⟨q, e⟩ - hfound ⟨hname, m, hm, -, hx⟩
  dsimp only [ElementDef.item] at hname hm hx ⊢
  cases hx with
  | @element _ v _ _ node _ shows inside =>
      have hq : q.scope.element? name = some e :=
        Place.nearest?_eq_some (Place.found_eq_ok.mp hfound)
      rw [elementAt, node, numbered, ok_bind]
      refine .ok ⟨?_, _, inside, ?_⟩
      · rw [Place.path, Schema.placeAt?, hm.placed, Option.bind_some, hq, Option.map_some]
      · exact congrArg (· :: q.path) hname

/-- A route leads to the same scope in both. -/
theorem place (h : g.Shows s) (route : List String) :
    Alike (g.At s) (g.place route) (s.place route) :=
  Alike.foldlM (fun _ _ name hp => h.enter hp name) route ⟨rfl, _, h.top, rfl⟩

end Shows

/-! ## Types -/

/-- What is found is named by the scope in which it is found. -/
theorem Finds.named {i : Item} (h : g.Finds s c name x p i) : g.Named p.path c name x := by
  obtain ⟨-, n, ⟨-, r, hr, hpath⟩, hx, -⟩ := h
  exact ⟨n, r, hr, hpath, hx⟩

/-- What shows an item is there. -/
theorem ShowsItem.lt_count {path : Path} {i : Item} (h : g.ShowsItem path n c x i) :
    x < g.count c := by
  cases h with
  | valueType node => exact (List.getElem?_eq_some_iff.mp node).choose
  | struct node => exact (List.getElem?_eq_some_iff.mp node).choose
  | «attribute» node => exact (List.getElem?_eq_some_iff.mp node).choose
  | element node => exact (List.getElem?_eq_some_iff.mp node).choose

theorem any_eq_of_forall₂ {R : α → β → Prop} {xs : List α} {ys : List β} {f : α → Bool}
    {k : β → Bool} (h : List.Forall₂ R xs ys) (hfk : ∀ x y, R x y → f x = k y) :
    xs.any f = ys.any k := by
  induction h with
  | nil => rfl
  | cons hx _ ih => rw [List.any_cons, List.any_cons, hfk _ _ hx, ih]

theorem rel_getLast? {R : α → β → Prop} {xs : List α} {ys : List β} (h : List.Forall₂ R xs ys) :
    Option.Rel R xs.getLast? ys.getLast? := by
  rw [List.getLast?_eq_head?_reverse, List.getLast?_eq_head?_reverse]
  have hreverse := List.forall₂_reverse_iff.mpr h
  generalize xs.reverse = as at hreverse ⊢
  generalize ys.reverse = bs at hreverse ⊢
  cases hreverse with
  | nil => exact .none
  | cons hx _ => exact .some hx

/-- Both structs have an optional value or none has. -/
theorem ShowsStruct.hasOptional_eq {v : StructNode} {r : Struct} (h : g.ShowsStruct v r) :
    v.hasOptional = r.hasOptional :=
  any_eq_of_forall₂ h.values fun _ _ hx => hx.optional

/-- The same types can be built on what is offered. -/
theorem ShowsOffer.makeType {offer : Offer} {b : Candidate} (h : g.ShowsOffer offer b)
    (nullable : Bool) (range : Option Occurrence) (arrayNullable : Bool) :
    Alike g.ShowsType (g.makeType offer nullable range arrayNullable)
      (DataType.make b nullable range arrayNullable) := by
  cases h with
  | foreign shown => exact .error _
  | value shows =>
      cases range with
      | none =>
          cases arrayNullable with
          | true => exact .error _
          | false => exact .ok ⟨.value shows, rfl, rfl⟩
      | some o => exact .ok ⟨.value shows, rfl, rfl⟩
  | @struct d path v r named node shows =>
      cases range with
      | none =>
          cases arrayNullable with
          | true => exact .error _
          | false => exact .ok ⟨.struct named, rfl, rfl⟩
      | some o =>
          simp only [Graph.makeType, DataType.make, structAt, node, numbered, ok_bind, Base.name,
            shows.name, shows.hasOptional_eq]
          cases r.hasOptional with
          | true => exact .error _
          | false => exact .ok ⟨.struct named, rfl, rfl⟩

namespace Shows

/-- What is offered is there. -/
theorem checkOffer (h : g.Shows s) {offer : Offer} {b : Candidate} (ho : g.ShowsOffer offer b) :
    g.checkOffer offer = .ok () := by
  have hnamed {c : Category} {path : Path} {name : String} {x : Nat}
      (hx : g.Named path c name x) : g.checkNumber c x = .ok () := by
    obtain ⟨n, r, hr, -, hx⟩ := hx
    obtain ⟨i, -, hi⟩ := h.showsItem_of_registers hr hx
    exact checkNumber_eq_ok.mpr hi.lt_count
  cases ho with
  | foreign => rfl
  | value shows =>
      cases shows with
      | predefined => rfl
      | valueType named => exact hnamed named
  | struct named => exact hnamed named

/-- A base is offered in both or its name stands for nothing in both. -/
theorem offer (h : g.Shows s) (hp : g.At s n p) (b : BaseName) :
    Alike g.ShowsOffer (b.offer g n) (b.resolve p) := by
  cases b with
  | predefined t => exact .ok (.value (.predefined t))
  | valueType name =>
      exact (hp.found (h.valueType? hp name)).bind fun x r hx => .ok (.value (.valueType hx.named))
  | struct name =>
      refine (hp.found (h.struct? hp name)).bind ?_
      rintro x ⟨q, r⟩ hx
      obtain ⟨rfl, n, -, -, hshows⟩ := id hx
      cases hshows with
      | struct node shows => exact .ok (.struct hx.named node shows)
  | foreign shown => exact .ok (.foreign shown)

/-- A name stands for the same base in both. -/
theorem base? (h : g.Shows s) (hp : g.At s n p) (name : String) :
    Option.Rel (fun b k => g.ShowsOffer (.base b) k) (g.base? n name) (p.base? name) := by
  rw [Graph.base?, Place.base?, Place.valueBase?]
  cases Predefined.ofName? name with
  | some t => exact .some (.value (.predefined t))
  | none =>
      have hvalue := h.valueType? hp name
      generalize g.find? n .valueType name = v at hvalue ⊢
      generalize p.valueType? name = w at hvalue ⊢
      cases hvalue with
      | some hx => exact .some (.value (.valueType hx.named))
      | none =>
          have hstruct := h.struct? hp name
          generalize g.find? n .struct name = v at hstruct ⊢
          generalize p.struct? name = w at hstruct ⊢
          cases hstruct with
          | none => exact .none
          | some hx =>
              obtain ⟨rfl, m, -, -, hshows⟩ := id hx
              cases hshows with
              | struct node shows => exact .some (.struct hx.named node shows)

/-- A text writes the same type for both or is wrong for both. -/
theorem readType (h : g.Shows s) (hp : g.At s n p) (text : String) :
    Alike g.ShowsType (g.readType n text) (DataType.read p text) := by
  obtain ⟨r, hr, hpath⟩ := hp.position
  obtain ⟨node, hnode, rfl⟩ := at?_of_position? hr
  rw [Graph.readType, DataType.read, scopeAt, hnode, numbered, ok_bind]
  cases DataType.readParts text with
  | error e => exact .error e
  | ok parts =>
      rw [ok_bind, ok_bind]
      have hbase := h.base? hp (String.ofList parts.base)
      dsimp only
      generalize g.base? n (String.ofList parts.base) = b at hbase ⊢
      generalize p.base? (String.ofList parts.base) = k at hbase ⊢
      cases hbase with
      | none =>
          rw [← hpath]
          exact .error _
      | some hb => exact hb.makeType _ _ _

end Shows

/-- The same values can be added to a struct. -/
theorem ShowsStruct.newValue {v : StructNode} {r : Struct} (h : g.ShowsStruct v r) {offer : Offer}
    {b : Candidate} (ho : g.ShowsOffer offer b) (name : String) (optional nullable : Bool) :
    Alike g.ShowsField (v.newValue name optional offer nullable)
      (r.newValue name optional b nullable) := by
  have hnames : v.values.any (·.name == name) = r.values.any (·.name == name) :=
    any_eq_of_forall₂ h.values fun _ _ hx => by rw [hx.name]
  have hlast : v.values.getLast?.any (·.optional) = r.values.getLast?.any (·.optional) := by
    have hrel := rel_getLast? h.values
    generalize v.values.getLast? = a at hrel ⊢
    generalize r.values.getLast? = b at hrel ⊢
    cases hrel with
    | none => rfl
    | some hx => exact hx.optional
  unfold StructNode.newValue Struct.newValue
  rw [hnames, hlast, h.name]
  split
  · exact .error _
  · split
    · exact .error _
    · cases ho with
      | value shows => exact .ok ⟨rfl, rfl, shows, rfl⟩
      | struct => exact .error _
      | foreign => exact .error _

/-- The type of an attribute can be set in both or has been set in both. -/
theorem ShowsAttribute.setType {v : AttributeNode} {a : AttributeDef} {t : TypeNode} {u : DataType}
    (h : g.ShowsAttribute v a) (ht : g.ShowsType t u) :
    Alike (fun w b => g.ShowsAttribute w b ∧ b.name = a.name) (v.setType t) (a.setType u) := by
  obtain ⟨hname, htype⟩ := h
  rw [AttributeNode.setType, AttributeDef.setType, hname]
  generalize v.type = v' at htype ⊢
  generalize a.type = a' at htype ⊢
  cases htype with
  | none => exact .ok ⟨⟨rfl, .some ht⟩, rfl⟩
  | some => exact .error _

end Graph

end SmlSchema
