import Mathlib.Data.List.Perm.Basic
import SmlSchema.Proofs.Document.Reading
import SmlSchema.Proofs.TwoRuns

/-! # Documents that differ in letter case and in the order of kinds

Names are compared without regard to letter case, and nodes are asked for by name. An element can
therefore be rearranged: its nodes of one name stay in order, but they may come before or after
nodes of other names, and the letter case of names may change. The operations on attributes and
elements do not tell it from the one it was.
-/

namespace SmlSchema

/-! ## Attributes -/

namespace Attribute

/-- The same attribute but for the letter case of its name. -/
structure Recased (a b : Attribute) : Prop where
  name : Text.lower a.name = Text.lower b.name
  values : a.values = b.values

namespace Recased

variable {a b : Attribute}

theorem string (h : a.Recased b) (index : Nat) : Together Eq (a.string index) (b.string index) :=
  Together.eq_iff.mpr fun s => by rw [string_eq_ok, string_eq_ok, h.values]

theorem onlyString (h : a.Recased b) : Together Eq a.onlyString b.onlyString :=
  Together.eq_iff.mpr fun s => by rw [onlyString_eq_ok, onlyString_eq_ok, h.values]

theorem strings (h : a.Recased b) : Together Eq a.strings b.strings :=
  Together.eq_iff.mpr fun ls => by rw [strings_eq_ok, strings_eq_ok, h.values]

theorem assureValueCount (h : a.Recased b) (count : Nat) :
    Together Eq (a.assureValueCount count) (b.assureValueCount count) :=
  Together.eq_iff.mpr fun u => by rw [assureValueCount_eq_ok, assureValueCount_eq_ok, h.values]

theorem assureValueBounds (h : a.Recased b) (min : Int) (max : Option Int) :
    Together Eq (a.assureValueBounds min max) (b.assureValueBounds min max) :=
  Together.eq_iff.mpr fun u => by rw [assureValueBounds_eq_ok, assureValueBounds_eq_ok, h.values]

theorem label (h : a.Recased b) (labels : List String) (index : Nat) (nullable : Bool) :
    Together Eq (label labels a index nullable) (label labels b index nullable) :=
  Together.eq_iff.mpr fun r => by rw [label_eq_ok, label_eq_ok, h.values]

end Recased

end Attribute

/-! ## Elements -/

namespace Element

/-- The same element but for the letter case of names and the order of nodes of different names. -/
inductive Rearranged : Element → Element → Prop where
  | mk {a b : Element} (name : Text.lower a.name = Text.lower b.name)
      (elements : ∀ name, List.Forall₂ Rearranged (a.elements name) (b.elements name))
      (attributes :
        ∀ name, List.Forall₂ Attribute.Recased (a.attributes name) (b.attributes name)) :
      Rearranged a b

/-- Elements with as many of each name have the same names in lower case, in some order. -/
theorem perm_lower {α : Type} {xs ys : List α} {f : α → String}
    (h : ∀ name, (xs.filter fun x => Text.sameName (f x) name).length =
      (ys.filter fun y => Text.sameName (f y) name).length) :
    (xs.map fun x => Text.lower (f x)).Perm (ys.map fun y => Text.lower (f y)) := by
  rw [List.perm_iff_count]
  intro l
  by_cases hl : ∃ name, Text.lower name = l
  · obtain ⟨name, rfl⟩ := hl
    rw [List.count_eq_countP, List.count_eq_countP, List.countP_map, List.countP_map,
      List.countP_eq_length_filter, List.countP_eq_length_filter]
    exact h name
  · have hnone : ∀ zs : List α, l ∉ zs.map fun z => Text.lower (f z) := by
      intro zs hmem
      obtain ⟨z, -, hz⟩ := List.mem_map.mp hmem
      exact hl ⟨f z, hz⟩
    rw [List.count_eq_zero_of_not_mem (hnone xs), List.count_eq_zero_of_not_mem (hnone ys)]

/-- Whether a name is among others depends on its lower case. -/
theorem forall_hasName_iff {α : Type} {xs ys : List α} {f : α → String} {names : List String}
    (h : (xs.map fun x => Text.lower (f x)).Perm (ys.map fun y => Text.lower (f y))) :
    (∀ x ∈ xs, hasName names (f x)) ↔ ∀ y ∈ ys, hasName names (f y) := by
  have hmap : ∀ zs : List α, (∀ z ∈ zs, hasName names (f z)) ↔
      ∀ l ∈ zs.map fun z => Text.lower (f z), names.any fun n => Text.lower n == l := by
    intro zs
    rw [List.forall_mem_map]
    rfl
  rw [hmap, hmap]
  exact forall_congr' fun l => by rw [h.mem_iff]

/-- Asking for one node gives related nodes, or fails twice. -/
theorem together_one {α β : Type} {R : α → β → Prop} {xs : List α} {ys : List β} (e f : Element)
    (kind : NodeKind) (name : String) (h : List.Forall₂ R xs ys) :
    Together R (e.one kind name xs) (f.one kind name ys) := by
  cases h with
  | nil => exact .error
  | cons hxy hrest =>
      cases hrest with
      | nil => exact .ok hxy
      | cons _ _ => exact .error

/-- Asking for an optional node gives related nodes or none, or fails twice. -/
theorem together_atMostOne {α β : Type} {R : α → β → Prop} {xs : List α} {ys : List β}
    (e f : Element) (kind : NodeKind) (name : String) (h : List.Forall₂ R xs ys) :
    Together (Option.Rel R) (e.atMostOne kind name xs) (f.atMostOne kind name ys) := by
  cases h with
  | nil => exact .ok .none
  | cons hxy hrest =>
      cases hrest with
      | nil => exact .ok (.some hxy)
      | cons _ _ => exact .error

namespace Rearranged

variable {a b : Element}

/-- Along both trees: what follows for two elements from their children of each name holds. -/
@[elab_as_elim] theorem ind {P : Element → Element → Prop}
    (step : ∀ a b, Rearranged a b →
      (∀ name, List.Forall₂ P (a.elements name) (b.elements name)) → P a b)
    {a b : Element} (h : Rearranged a b) : P a b :=
  @Rearranged.rec (fun a b _ => P a b) (fun xs ys _ => List.Forall₂ P xs ys)
    (fun name elements attributes ih => step _ _ ⟨name, elements, attributes⟩ ih) .nil
    (fun _ _ hxy hrest => .cons hxy hrest) a b h

theorem name (h : a.Rearranged b) : Text.lower a.name = Text.lower b.name := by
  cases h with
  | mk name _ _ => exact name

/-- The elements of a name come in the same order. -/
theorem elements (h : a.Rearranged b) (name : String) :
    List.Forall₂ Rearranged (a.elements name) (b.elements name) := by
  cases h with
  | mk _ elements _ => exact elements name

/-- The attributes of a name come in the same order. -/
theorem attributes (h : a.Rearranged b) (name : String) :
    List.Forall₂ Attribute.Recased (a.attributes name) (b.attributes name) := by
  cases h with
  | mk _ _ attributes => exact attributes name

/-- The names of all children are the same up to order and letter case. -/
theorem perm_children (h : a.Rearranged b) :
    (a.children.map fun c => Text.lower c.name).Perm
      (b.children.map fun c => Text.lower c.name) :=
  perm_lower fun name => (h.elements name).length_eq

/-- The names of all attributes are the same up to order and letter case. -/
theorem perm_attributes (h : a.Rearranged b) :
    (a.ownAttributes.map fun x => Text.lower x.name).Perm
      (b.ownAttributes.map fun x => Text.lower x.name) :=
  perm_lower fun name => (h.attributes name).length_eq

theorem sameName (h : a.Rearranged b) (name : String) :
    Text.sameName a.name name = Text.sameName b.name name := by
  rw [Text.sameName, h.name, Text.sameName]

theorem assureName (h : a.Rearranged b) (name : String) :
    Together Eq (a.assureName name) (b.assureName name) :=
  Together.eq_iff.mpr fun u => by rw [assureName_eq_ok, assureName_eq_ok, h.sameName]

/-- A check of the names of children passes in both or in none. -/
theorem assureElementNames (h : a.Rearranged b) (names : List String) :
    Together Eq (a.assureElementNames names) (b.assureElementNames names) :=
  Together.eq_iff.mpr fun u => by
    rw [assureElementNames_eq_ok, assureElementNames_eq_ok, forall_hasName_iff h.perm_children]

/-- A check of the names of attributes passes in both or in none. -/
theorem assureAttributeNames (h : a.Rearranged b) (names : List String) :
    Together Eq (a.assureAttributeNames names) (b.assureAttributeNames names) :=
  Together.eq_iff.mpr fun u => by
    rw [assureAttributeNames_eq_ok, assureAttributeNames_eq_ok,
      forall_hasName_iff h.perm_attributes]

theorem assureNoElements (h : a.Rearranged b) :
    Together Eq a.assureNoElements b.assureNoElements := by
  have hlength := h.perm_children.length_eq
  rw [List.length_map, List.length_map] at hlength
  refine Together.eq_iff.mpr fun u => ?_
  rw [assureNoElements_eq_ok, assureNoElements_eq_ok, ← List.length_eq_zero_iff, hlength,
    List.length_eq_zero_iff]

theorem assureNoAttributes (h : a.Rearranged b) :
    Together Eq a.assureNoAttributes b.assureNoAttributes := by
  have hlength := h.perm_attributes.length_eq
  rw [List.length_map, List.length_map] at hlength
  refine Together.eq_iff.mpr fun u => ?_
  rw [assureNoAttributes_eq_ok, assureNoAttributes_eq_ok, ← List.length_eq_zero_iff, hlength,
    List.length_eq_zero_iff]

/-- A check for one of several children passes in both or in none. -/
theorem assureChoice (h : a.Rearranged b) (names : List String) (canBeNone : Bool) :
    Together Eq (a.assureChoice names canBeNone) (b.assureChoice names canBeNone) := by
  have hcount : (a.children.filter fun c => hasName names c.name).length =
      (b.children.filter fun c => hasName names c.name).length := by
    have hperm := h.perm_children.countP_eq fun l => names.any fun n => Text.lower n == l
    rw [List.countP_map, List.countP_map, List.countP_eq_length_filter,
      List.countP_eq_length_filter] at hperm
    exact hperm
  exact Together.eq_iff.mpr fun u => by rw [assureChoice_eq_ok, assureChoice_eq_ok, hcount]

theorem hasElement (h : a.Rearranged b) (name : String) :
    a.hasElement name = b.hasElement name := by
  have hlist := h.elements name
  unfold Element.hasElement
  generalize a.elements name = xs, b.elements name = ys at hlist
  cases hlist <;> rfl

/-- A required child is found in both or in none. -/
theorem requiredElement (h : a.Rearranged b) (name : String) :
    Together Rearranged (a.requiredElement name) (b.requiredElement name) :=
  together_one a b .element name (h.elements name)

/-- An optional child is found in both or in none. -/
theorem optionalElement (h : a.Rearranged b) (name : String) :
    Together (Option.Rel Rearranged) (a.optionalElement name) (b.optionalElement name) :=
  together_atMostOne a b .element name (h.elements name)

/-- A required attribute is found in both or in none. -/
theorem requiredAttribute (h : a.Rearranged b) (name : String) :
    Together Attribute.Recased (a.requiredAttribute name) (b.requiredAttribute name) :=
  together_one a b .attribute name (h.attributes name)

/-- An optional attribute is found in both or in none. -/
theorem optionalAttribute (h : a.Rearranged b) (name : String) :
    Together (Option.Rel Attribute.Recased) (a.optionalAttribute name) (b.optionalAttribute name) :=
  together_atMostOne a b .attribute name (h.attributes name)

/-! ### Rearranging step by step

The first node of one element is matched with the first node of its kind and name in the other.
-/

theorem nil {t t' : String} (h : Text.lower t = Text.lower t') : Rearranged ⟨t, []⟩ ⟨t', []⟩ :=
  ⟨h, fun _ => .nil, fun _ => .nil⟩

/-- Lists of which the items of each name are matched in order each get one more item of the same
name; in the second list it is the first of its name. -/
theorem matched_cons {α : Type} {R : α → α → Prop} {f : α → String} {x y : α}
    {xs front back : List α}
    (h : ∀ name, List.Forall₂ R (xs.filter fun z => Text.sameName (f z) name)
      ((front ++ back).filter fun z => Text.sameName (f z) name))
    (hxy : R x y) (hname : Text.lower (f x) = Text.lower (f y))
    (hfirst : front.filter (fun z => Text.sameName (f z) (f y)) = []) (name : String) :
    List.Forall₂ R ((x :: xs).filter fun z => Text.sameName (f z) name)
      ((front ++ y :: back).filter fun z => Text.sameName (f z) name) := by
  have hsame : Text.sameName (f x) name = Text.sameName (f y) name := by
    rw [Text.sameName, hname, Text.sameName]
  have hrest := h name
  rw [List.filter_append] at hrest
  rw [List.filter_cons, hsame, List.filter_append, List.filter_cons]
  by_cases hy : Text.sameName (f y) name
  · have hnone : front.filter (fun z => Text.sameName (f z) name) = [] := by
      rw [← hfirst]
      refine List.filter_congr fun z _ => ?_
      rw [Text.sameName, ← eq_of_beq hy, Text.sameName]
    rw [hnone, List.nil_append] at hrest
    rw [hnone, if_pos hy, if_pos hy]
    exact .cons hxy hrest
  · rw [if_neg hy, if_neg hy]
    exact hrest

variable {t t' : String} {ns back : List Node}

/-- A child may stand anywhere before the next child of its name. -/
theorem addElement (front : List Node) {c d : Element}
    (h : Rearranged ⟨t, ns⟩ ⟨t', front ++ back⟩) (hcd : c.Rearranged d)
    (hfirst : Element.hasElement ⟨t', front⟩ d.name = false) :
    Rearranged ⟨t, c.toNode :: ns⟩ ⟨t', front ++ d.toNode :: back⟩ := by
  have hnone : Element.elements ⟨t', front⟩ d.name = [] := by
    simpa [Element.hasElement] using hfirst
  obtain ⟨hname, helements, hattributes⟩ := h
  refine ⟨hname, fun name => ?_, fun name => ?_⟩
  · have hmatched := helements
    simp only [Element.elements, children_append] at hmatched
    rw [Element.elements, Element.elements, children_append]
    exact matched_cons hmatched hcd hcd.name hnone name
  · have hmatched := hattributes name
    rw [attributes_append] at hmatched ⊢
    exact hmatched

/-- An attribute may stand anywhere before the next attribute of its name. -/
theorem addAttribute (front : List Node) {x y : Attribute}
    (h : Rearranged ⟨t, ns⟩ ⟨t', front ++ back⟩) (hxy : x.Recased y)
    (hfirst : Element.hasAttribute ⟨t', front⟩ y.name = false) :
    Rearranged ⟨t, .attribute x :: ns⟩ ⟨t', front ++ .attribute y :: back⟩ := by
  have hnone : Element.attributes ⟨t', front⟩ y.name = [] := by
    simpa [Element.hasAttribute] using hfirst
  obtain ⟨hname, helements, hattributes⟩ := h
  refine ⟨hname, fun name => ?_, fun name => ?_⟩
  · have hmatched := helements name
    rw [elements_append] at hmatched ⊢
    exact hmatched
  · have hmatched := hattributes
    simp only [Element.attributes, ownAttributes_append] at hmatched
    rw [Element.attributes, Element.attributes, ownAttributes_append]
    exact matched_cons hmatched hxy hxy.name hnone name

end Rearranged

end Element

end SmlSchema
