import Mathlib.Data.List.Induction
import SmlSchema.Proofs.Graph.Lookup

/-! # Arrays of structs with optional values

The rows of an array have a fixed length, so that no type can be built as an array of a struct that
has optional values. But types, attributes and structs are shared, and only the building of a type
is checked. There are three ways to such an array in the model. An optional value is added to a
struct of which the model has an array. A type that was built before its struct got an optional
value is assigned to an attribute of the model. An attribute that has got such an array outside the
model becomes a part of it. A run has such an array in one of its models if and only if one of its
calls does one of these.
-/

namespace SmlSchema.Graph

/-! ## The model -/

/-- What the model consists of: scopes and definitions. -/
inductive Part where
  | scope (n : Nat)
  | definition (c : Category) (x : Nat)

/-- The part belongs to the model: the schema's own scope, what a scope of the model registers, and
the scope and the entries of an element of the model. -/
inductive Has (g : Graph) : Part → Prop
  | schema : Has g (.scope 0)
  | registered {n x : Nat} {c : Category} {key : String} (scope : Has g (.scope n))
      (registers : g.Registers n c key x) : Has g (.definition c x)
  | inner {e : Nat} {node : ElementNode} (element : Has g (.definition .element e))
      (defined : g.elements[e]? = some node) : Has g (.scope node.scope)
  | useAttribute {e : Nat} {node : ElementNode} {c : ContentNode} {u : AttributeUse}
      (element : Has g (.definition .element e)) (defined : g.elements[e]? = some node)
      (content : node.content = some c) (entry : u ∈ c.attributes) :
      Has g (.definition .attribute u.definition)
  | useElement {e : Nat} {node : ElementNode} {c : ContentNode} {u : ElementUse}
      (element : Has g (.definition .element e)) (defined : g.elements[e]? = some node)
      (content : node.content = some c) (entry : u ∈ c.elements) :
      Has g (.definition .element u.definition)

def TypeNode.IsArrayOf (type : TypeNode) (d : Nat) : Prop :=
  type.array.isSome ∧ type.base = .struct d

/-- The type of the attribute is an array of the struct. -/
def HasArrayOf (g : Graph) (a d : Nat) : Prop :=
  ∃ node type, g.attributes[a]? = some node ∧ node.type = some type ∧ type.IsArrayOf d

def HasOptional (g : Graph) (d : Nat) : Prop :=
  ∃ s, g.structs[d]? = some s ∧ s.hasOptional

/-- No attribute of the model has an array of a struct with optional values. -/
def ArraysPlain (g : Graph) : Prop :=
  ∀ a d, g.Has (.definition .attribute a) → g.HasArrayOf a d → ¬ g.HasOptional d

/-- The call can make a definition that there is already a part of the model. -/
def Call.Connects : Call → Prop
  | .addExisting .. => True
  | .addElement .. => True
  | .addAttribute .. => True
  | .addInline .. => True
  | _ => False

/-- The three ways in which a call that makes `t` of `g` leads to an array of a struct with optional
values. -/
inductive Spoiling (g t : Graph) : Call → Prop
  | grows {a d : Nat} {name : String} {base : Offer} {nullable : Bool}
      (has : g.Has (.definition .attribute a)) (array : g.HasArrayOf a d) :
      Spoiling g t (.addValue d name true base nullable)
  | assigns {a k d : Nat} {type : TypeNode} (has : g.Has (.definition .attribute a))
      (built : g.types[k]? = some type) (array : type.IsArrayOf d) (optional : g.HasOptional d) :
      Spoiling g t (.assignType a k)
  | brings {call : Call} {a d : Nat} (connects : call.Connects) (array : g.HasArrayOf a d)
      (optional : g.HasOptional d) (outside : ¬ g.Has (.definition .attribute a))
      (inside : t.Has (.definition .attribute a)) : Spoiling g t call

/-- The call succeeds and spoils the arrays of the model. -/
def Spoils (g : Graph) (call : Call) : Prop :=
  ∃ r t, call.perform.on g = (.ok r, t) ∧ g.Spoiling t call

/-! ## What grows -/

variable {g t : Graph} {call : Call} {r : Option Nat} {part : Part} {a d e n x : Nat}
  {c : Category} {key : String}

/-- Elements keep their scope and what their content has. -/
structure ElementNode.Extends (old new : ElementNode) : Prop where
  scope_eq : new.scope = old.scope
  content : ∀ c, old.content = some c →
    ∃ c', new.content = some c' ∧ c.attributes ⊆ c'.attributes ∧ c.elements ⊆ c'.elements

theorem ElementNode.Extends.refl (node : ElementNode) : node.Extends node :=
  ⟨rfl, fun c hc => ⟨c, hc, List.Subset.refl _, List.Subset.refl _⟩⟩

/-- Nothing is lost from one graph to the other: no registered definition, no content, no type of an
attribute and no optional value of a struct. -/
structure Grows (g t : Graph) : Prop where
  registers : ∀ n c key x, g.Registers n c key x → t.Registers n c key x
  elements : ∀ (e : Nat) (node : ElementNode), g.elements[e]? = some node →
    ∃ new, t.elements[e]? = some new ∧ node.Extends new
  arrays : ∀ a d, g.HasArrayOf a d → t.HasArrayOf a d
  optional : ∀ d, g.HasOptional d → t.HasOptional d

/-- What belongs to the model still belongs to it after the model has grown. -/
theorem Has.mono (hgrows : g.Grows t) (h : g.Has part) : t.Has part := by
  induction h with
  | schema => exact .schema
  | registered _ registers ih => exact .registered ih (hgrows.registers _ _ _ _ registers)
  | inner _ defined ih =>
      obtain ⟨new, hnew, hextends⟩ := hgrows.elements _ _ defined
      rw [← hextends.scope_eq]
      exact .inner ih hnew
  | useAttribute _ defined content entry ih =>
      obtain ⟨new, hnew, hextends⟩ := hgrows.elements _ _ defined
      obtain ⟨c', hc', hattributes, -⟩ := hextends.content _ content
      exact .useAttribute ih hnew hc' (hattributes entry)
  | useElement _ defined content entry ih =>
      obtain ⟨new, hnew, hextends⟩ := hgrows.elements _ _ defined
      obtain ⟨c', hc', -, helements⟩ := hextends.content _ content
      exact .useElement ih hnew hc' (helements entry)

/-! ## What a call changes -/

theorem getElem?_concat_eq_some {α : Type} {l : List α} {i : Nat} {y z : α} :
    (l ++ [y])[i]? = some z ↔ l[i]? = some z ∨ i = l.length ∧ z = y := by
  rw [List.getElem?_append]
  split
  · rename_i hi
    simp [Nat.ne_of_lt hi]
  · rename_i hi
    rw [List.getElem?_eq_none (Nat.le_of_not_lt hi), List.getElem?_singleton]
    by_cases hlen : i = l.length
    · simp [hlen, eq_comm]
    · rw [if_neg (by omega)]
      simp [hlen]

theorem lt_of_registers (h : g.Registers n c key x) : n < g.scopes.length := by
  rw [Registers, Scopes.items] at h
  cases hs : Scopes.at? g.scopes n with
  | none => simp [hs] at h
  | some s => exact Scopes.lt_of_at? hs

/-- No call takes a registered definition away. -/
theorem Effect.registers (h : Effect g call r t) (hw : Scopes.Wired g.scopes)
    (hx : g.Registers n c key x) : t.Registers n c key x := by
  have hn := lt_of_registers hx
  have hlookups := (h.lookups hw).2
  split at hlookups
  · rename_i m d k _
    obtain ⟨y, -, hregistered⟩ := hlookups
    rw [Registers] at hx ⊢
    by_cases hnd : n = m ∧ c = d
    · obtain ⟨rfl, rfl⟩ := hnd
      rw [hregistered.items_at]
      exact List.mem_append_left _ hx
    · rwa [hregistered.items_eq n hn c hnd]
  · rwa [Registers, hlookups.items_eq n hn]

/-- New content that has all entries of the old one extends the elements. -/
theorem extends_withContent {node old : ElementNode} {content : ContentNode}
    (hnode : g.elements[e]? = some node)
    (hcontent : ∀ c, node.content = some c →
      c.attributes ⊆ content.attributes ∧ c.elements ⊆ content.elements)
    {i : Nat} (hold : g.elements[i]? = some old) :
    ∃ new, (g.withContent e node content).elements[i]? = some new ∧ old.Extends new := by
  by_cases hi : e = i
  · subst hi
    rw [hnode] at hold
    cases hold
    refine ⟨{ node with content := some content }, ?_, rfl, fun c hc => ⟨_, rfl, hcontent c hc⟩⟩
    exact List.getElem?_set_self (List.getElem?_eq_some_iff.mp hnode).1
  · exact ⟨old, (List.getElem?_set_ne hi).trans hold, .refl old⟩

/-- A call extends elements; it takes no entry away. -/
theorem Effect.elements (h : Effect g call r t) {node : ElementNode}
    (hnode : g.elements[e]? = some node) :
    ∃ new, t.elements[e]? = some new ∧ node.Extends new := by
  cases h with
  | newElement => exact ⟨node, getElem?_concat_eq_some.mpr (.inl hnode), .refl node⟩
  | addElement => exact ⟨node, getElem?_concat_eq_some.mpr (.inl hnode), .refl node⟩
  | setContent defined unset =>
      refine extends_withContent defined (fun c hc => ?_) hnode
      rw [unset] at hc
      cases hc
  | useElement defined content =>
      refine extends_withContent defined (fun c hc => ?_) hnode
      cases content.symm.trans hc
      exact ⟨List.Subset.refl _, List.subset_append_left _ _⟩
  | useAttribute defined content =>
      refine extends_withContent defined (fun c hc => ?_) hnode
      cases content.symm.trans hc
      exact ⟨List.subset_append_left _ _, List.Subset.refl _⟩
  | useInline defined content =>
      refine extends_withContent defined (fun c hc => ?_) hnode
      cases content.symm.trans hc
      exact ⟨List.subset_append_left _ _, List.Subset.refl _⟩
  | _ => exact ⟨node, hnode, .refl node⟩

/-- An attribute keeps its array. -/
theorem Effect.hasArrayOf (h : Effect g call r t) (ha : g.HasArrayOf a d) : t.HasArrayOf a d := by
  obtain ⟨node, type, hnode, htype, harray⟩ := ha
  cases h with
  | newAttribute =>
      exact ⟨node, type, getElem?_concat_eq_some.mpr (.inl hnode), htype, harray⟩
  | addAttribute =>
      exact ⟨node, type, getElem?_concat_eq_some.mpr (.inl hnode), htype, harray⟩
  | @assignType b _ other _ defined _ unset =>
      refine ⟨node, type, (List.getElem?_set_ne ?_).trans hnode, htype, harray⟩
      rintro rfl
      cases defined.symm.trans hnode
      cases unset.symm.trans htype
  | _ => exact ⟨node, type, hnode, htype, harray⟩

/-- An attribute gets an array only by an assignment. -/
theorem Effect.hasArrayOf_cases (h : Effect g call r t) (ha : t.HasArrayOf a d) :
    g.HasArrayOf a d ∨
      ∃ k type, call = .assignType a k ∧ a < g.attributes.length ∧ g.types[k]? = some type ∧
        type.IsArrayOf d := by
  obtain ⟨node, type, hnode, htype, harray⟩ := ha
  cases h with
  | newAttribute =>
      obtain hnode | ⟨-, rfl⟩ := getElem?_concat_eq_some.mp hnode
      · exact .inl ⟨node, type, hnode, htype, harray⟩
      · cases htype
  | addAttribute =>
      obtain hnode | ⟨-, rfl⟩ := getElem?_concat_eq_some.mp hnode
      · exact .inl ⟨node, type, hnode, htype, harray⟩
      · cases htype
  | @assignType b k _ assigned defined built unset =>
      have hlt := (List.getElem?_eq_some_iff.mp defined).1
      by_cases hb : b = a
      · subst hb
        cases (List.getElem?_set_self hlt).symm.trans hnode
        cases htype
        exact .inr ⟨k, _, rfl, hlt, built, harray⟩
      · exact .inl ⟨node, type, (List.getElem?_set_ne hb).symm.trans hnode, htype, harray⟩
  | _ => exact .inl ⟨node, type, hnode, htype, harray⟩

/-- A struct gets an optional value only by one being added. -/
@[simp] theorem StructNode.hasOptional_push (s : StructNode) (v : ValueNode) :
    (s.push v).hasOptional = (s.hasOptional || v.optional) := by
  simp [hasOptional, push]

theorem StructNode.optional_of_newValue {s : StructNode} {name : String} {optional nullable : Bool}
    {base : Offer} {v : ValueNode} (h : s.newValue name optional base nullable = .ok v) :
    v.optional = optional := by
  unfold newValue at h
  split at h
  · cases h
  · split at h
    · cases h
    · split at h
      · cases h
        rfl
      · cases h

/-- A struct keeps its optional values. -/
theorem Effect.hasOptional (h : Effect g call r t) (hd : g.HasOptional d) : t.HasOptional d := by
  obtain ⟨s, hs, hopt⟩ := hd
  cases h with
  | newStruct => exact ⟨s, getElem?_concat_eq_some.mpr (.inl hs), hopt⟩
  | addStruct => exact ⟨s, getElem?_concat_eq_some.mpr (.inl hs), hopt⟩
  | @addValue b _ _ _ _ _ v defined _ =>
      by_cases hb : b = d
      · subst hb
        cases defined.symm.trans hs
        refine ⟨s.push v, List.getElem?_set_self (List.getElem?_eq_some_iff.mp defined).1, ?_⟩
        rw [StructNode.hasOptional_push, hopt, Bool.true_or]
      · exact ⟨s, (List.getElem?_set_ne hb).trans hs, hopt⟩
  | _ => exact ⟨s, hs, hopt⟩

/-- A struct gets an optional value only when one is added. -/
theorem Effect.hasOptional_cases (h : Effect g call r t) (hd : t.HasOptional d) :
    g.HasOptional d ∨ ∃ name base nullable, call = .addValue d name true base nullable := by
  obtain ⟨s, hs, hopt⟩ := hd
  cases h with
  | newStruct =>
      obtain hs | ⟨-, rfl⟩ := getElem?_concat_eq_some.mp hs
      · exact .inl ⟨s, hs, hopt⟩
      · cases hopt
  | addStruct =>
      obtain hs | ⟨-, rfl⟩ := getElem?_concat_eq_some.mp hs
      · exact .inl ⟨s, hs, hopt⟩
      · cases hopt
  | @addValue b name optional nullable base other v defined made =>
      by_cases hb : b = d
      · subst hb
        cases (List.getElem?_set_self (List.getElem?_eq_some_iff.mp defined).1).symm.trans hs
        rw [StructNode.hasOptional_push, StructNode.optional_of_newValue made,
          Bool.or_eq_true] at hopt
        obtain hopt | rfl := hopt
        · exact .inl ⟨other, defined, hopt⟩
        · exact .inr ⟨name, base, nullable, rfl⟩
      · exact .inl ⟨s, (List.getElem?_set_ne hb).symm.trans hs, hopt⟩
  | _ => exact .inl ⟨s, hs, hopt⟩

/-- A call lets the model grow. -/
theorem Effect.grows (h : Effect g call r t) (hw : Scopes.Wired g.scopes) : g.Grows t where
  registers _ _ _ _ := h.registers hw
  elements _ _ := h.elements
  arrays _ _ := h.hasArrayOf
  optional _ := h.hasOptional

/-! ## What becomes a part of the model -/

/-- Nothing in the graph has the number. -/
def Part.IsNew (g : Graph) : Part → Prop
  | .scope n => g.scopes.length ≤ n
  | .definition c x => g.count c ≤ x

/-- An element after a call that connects nothing: it was there, and its content is as it was or
empty, or it is new and has neither content nor an old scope. -/
theorem Effect.element_cases (h : Effect g call r t) (hc : ¬ call.Connects) {node : ElementNode}
    (hnode : t.elements[e]? = some node) :
    (∃ old, g.elements[e]? = some old ∧ old.scope = node.scope ∧
        (node.content = old.content ∨ node.content = some {})) ∨
      g.elements.length ≤ e ∧ g.scopes.length ≤ node.scope ∧ node.content = none := by
  cases h with
  | newElement =>
      obtain hnode | ⟨rfl, rfl⟩ := getElem?_concat_eq_some.mp hnode
      · exact .inl ⟨node, hnode, rfl, .inl rfl⟩
      · exact .inr ⟨Nat.le_refl _, Nat.le_refl _, rfl⟩
  | addElement =>
      obtain hnode | ⟨rfl, rfl⟩ := getElem?_concat_eq_some.mp hnode
      · exact .inl ⟨node, hnode, rfl, .inl rfl⟩
      · exact .inr ⟨Nat.le_refl _, Nat.le_refl _, rfl⟩
  | @setContent b old defined unset =>
      by_cases hb : b = e
      · subst hb
        cases (List.getElem?_set_self (List.getElem?_eq_some_iff.mp defined).1).symm.trans hnode
        exact .inl ⟨old, defined, rfl, .inr rfl⟩
      · exact .inl ⟨node, (List.getElem?_set_ne hb).symm.trans hnode, rfl, .inl rfl⟩
  | useElement => exact absurd trivial hc
  | useAttribute => exact absurd trivial hc
  | useInline => exact absurd trivial hc
  | _ => exact .inl ⟨node, hnode, rfl, .inl rfl⟩

/-- What a call registers that connects nothing is new. -/
theorem Effect.count_le (h : Effect g call r t) (hc : ¬ call.Connects) {m : Nat}
    (hadded : call.addition? = some (m, c, key)) (hr : r = some x) : g.count c ≤ x := by
  cases h with
  | addStruct => cases hadded; cases hr; exact Nat.le_refl _
  | addAttribute => cases hadded; cases hr; exact Nat.le_refl _
  | addElement => cases hadded; cases hr; exact Nat.le_refl _
  | addEnum => cases hadded; cases hr; exact Nat.le_refl _
  | addExisting => exact absurd trivial hc
  | _ => cases hadded

/-- After a call that connects nothing, old scopes register what they registered and new
definitions, and new scopes nothing. -/
theorem Effect.registers_cases (h : Effect g call r t) (hw : Scopes.Wired g.scopes)
    (hc : ¬ call.Connects) (hx : t.Registers n c key x) :
    n < g.scopes.length ∧ g.Registers n c key x ∨ g.count c ≤ x := by
  have hlookups := (h.lookups hw).2
  split at hlookups
  · rename_i m d k hadded
    obtain ⟨y, hr, hregistered⟩ := hlookups
    by_cases hn : n < g.scopes.length
    · by_cases hnd : n = m ∧ c = d
      · obtain ⟨rfl, rfl⟩ := hnd
        rw [Registers, hregistered.items_at, List.mem_append, List.mem_singleton] at hx
        obtain hx | hx := hx
        · exact .inl ⟨hn, hx⟩
        · cases hx
          exact .inr (h.count_le hc hadded hr)
      · rw [Registers, hregistered.items_eq n hn c hnd] at hx
        exact .inl ⟨hn, hx⟩
    · have hempty := (hregistered.new_scope n (by omega) (lt_of_registers hx)).2 c
      rw [Registers, hempty] at hx
      cases hx
  · by_cases hn : n < g.scopes.length
    · rw [Registers, hlookups.items_eq n hn] at hx
      exact .inl ⟨hn, hx⟩
    · rw [Registers, hlookups.items_new n (by omega)] at hx
      cases hx

/-- A call that connects nothing makes nothing but new parts of the model. -/
theorem Effect.has_cases (h : Effect g call r t) (hw : Scopes.Wired g.scopes)
    (hc : ¬ call.Connects) (hpart : t.Has part) : g.Has part ∨ part.IsNew g := by
  induction hpart with
  | schema => exact .inl .schema
  | registered _ registers ih =>
      obtain ⟨hn, hx⟩ | hnew := h.registers_cases hw hc registers
      · obtain hscope | hnew := ih
        · exact .inl (.registered hscope hx)
        · exact absurd hn (Nat.not_lt.mpr hnew)
      · exact .inr hnew
  | inner _ defined ih =>
      obtain ⟨old, hold, hscope, -⟩ | ⟨-, hnew, -⟩ := h.element_cases hc defined
      · obtain helement | hnew := ih
        · exact .inl (hscope ▸ .inner helement hold)
        · exact absurd (List.getElem?_eq_some_iff.mp hold).1 (Nat.not_lt.mpr hnew)
      · exact .inr hnew
  | useAttribute _ defined content entry ih =>
      obtain ⟨old, hold, -, hcontent | hcontent⟩ | ⟨-, -, hnone⟩ := h.element_cases hc defined
      · obtain helement | hnew := ih
        · exact .inl (.useAttribute helement hold (hcontent.symm.trans content) entry)
        · exact absurd (List.getElem?_eq_some_iff.mp hold).1 (Nat.not_lt.mpr hnew)
      · cases content.symm.trans hcontent
        cases entry
      · cases content.symm.trans hnone
  | useElement _ defined content entry ih =>
      obtain ⟨old, hold, -, hcontent | hcontent⟩ | ⟨-, -, hnone⟩ := h.element_cases hc defined
      · obtain helement | hnew := ih
        · exact .inl (.useElement helement hold (hcontent.symm.trans content) entry)
        · exact absurd (List.getElem?_eq_some_iff.mp hold).1 (Nat.not_lt.mpr hnew)
      · cases content.symm.trans hcontent
        cases entry
      · cases content.symm.trans hnone

/-- An attribute that was there before gets into the model only by a call that connects it. -/
theorem Effect.has_attribute (h : Effect g call r t) (hw : Scopes.Wired g.scopes)
    (hc : ¬ call.Connects) (ha : t.Has (.definition .attribute a))
    (hlt : a < g.attributes.length) : g.Has (.definition .attribute a) :=
  (h.has_cases hw hc ha).resolve_right (Nat.not_le.mpr hlt)

/-! ## Calls -/

/-- Only an attribute that is there has an array. -/
theorem lt_of_hasArrayOf (h : g.HasArrayOf a d) : a < g.attributes.length := by
  obtain ⟨node, type, hnode, -⟩ := h
  exact (List.getElem?_eq_some_iff.mp hnode).1

/-- A call that does not spoil an array keeps the arrays plain. -/
theorem ArraysPlain.effect (hg : g.ArraysPlain) (hw : Scopes.Wired g.scopes)
    (h : Effect g call r t) (hfine : ¬ g.Spoiling t call) : t.ArraysPlain := by
  intro a d hhas harray hopt
  obtain harray | ⟨k, type, rfl, hlt, hbuilt, htype⟩ := h.hasArrayOf_cases harray
  · obtain hopt | ⟨name, base, nullable, rfl⟩ := h.hasOptional_cases hopt
    · have houtside : ¬ g.Has (.definition .attribute a) := fun hin => hg a d hin harray hopt
      by_cases hc : call.Connects
      · exact hfine (.brings hc harray hopt houtside hhas)
      · exact houtside (h.has_attribute hw hc hhas (lt_of_hasArrayOf harray))
    · exact hfine (.grows (h.has_attribute hw id hhas (lt_of_hasArrayOf harray)) harray)
  · obtain hopt | ⟨name, base, nullable, hcall⟩ := h.hasOptional_cases hopt
    · exact hfine (.assigns (h.has_attribute hw id hhas hlt) hbuilt htype hopt)
    · cases hcall

/-- A call that spoils an array leaves an array of a struct with optional values. -/
theorem Spoiling.not_arraysPlain (hspoils : g.Spoiling t call) (hw : Scopes.Wired g.scopes)
    (h : Effect g call r t) : ¬ t.ArraysPlain := by
  intro hplain
  cases hspoils with
  | @grows a d _ _ _ has array =>
      refine hplain a d (has.mono (h.grows hw)) (h.hasArrayOf array) ?_
      cases h with
      | @addValue _ _ _ _ _ s v defined made =>
          refine ⟨s.push v, List.getElem?_set_self (List.getElem?_eq_some_iff.mp defined).1, ?_⟩
          rw [StructNode.hasOptional_push, StructNode.optional_of_newValue made, Bool.or_true]
  | @assigns a k d type has built array optional =>
      refine hplain a d (has.mono (h.grows hw)) ?_ (h.hasOptional optional)
      cases h with
      | @assignType _ _ node _ defined built' =>
          cases built.symm.trans built'
          exact ⟨{ node with type := some type }, type,
            List.getElem?_set_self (List.getElem?_eq_some_iff.mp defined).1, rfl, array⟩
  | brings _ array optional _ inside =>
      exact hplain _ _ inside (h.hasArrayOf array) (h.hasOptional optional)

/-! ## Runs -/

theorem arraysPlain_empty : ArraysPlain {} := by
  rintro a d - ⟨node, type, hnode, -⟩
  cases hnode

/-- The arrays are plain in all models of a run if and only if no call of the run adds an optional
value to a struct of which the model has an array, assigns an array of a struct that has got an
optional value since to an attribute of the model, or makes an attribute with such an array a part
of the model. -/
theorem runAll_arraysPlain_iff (cs : List Call) :
    (∀ front, front <+: cs → (runAll {} front).ArraysPlain) ↔
      ∀ front call, front ++ [call] <+: cs → ¬ (runAll {} front).Spoils call := by
  have hstep : ∀ front call, runAll {} (front ++ [call]) = (call.perform.on (runAll {} front)).2 :=
    fun front call => runAll_append {} front [call]
  constructor
  · rintro hplain front call hfront ⟨r, t, hon, hspoils⟩
    refine hspoils.not_arraysPlain (wired_runAll front) (Call.effect_of_ok hon) ?_
    have ht := hplain _ hfront
    rwa [hstep, hon] at ht
  · intro hfine front hfront
    induction front using List.reverseRecOn with
    | nil => exact arraysPlain_empty
    | append_singleton front call ih =>
        have hg := ih ((List.prefix_append _ _).trans hfront)
        rw [hstep]
        obtain ⟨e, he⟩ | ⟨r, t, hon, heffect⟩ := call.effect (runAll {} front)
        · rwa [he]
        · rw [hon]
          refine hg.effect (wired_runAll front) heffect fun hspoils => ?_
          exact hfine front call hfront ⟨r, t, hon, hspoils⟩

/-- An array of a struct without optional values is made before the struct gets one. -/
theorem not_arraysPlain_grown :
    ¬ (runAll {} [.add 0 .struct "S", .add 0 .attribute "a",
      .buildType (.base (.struct 0)) false (some .repeatedStar) false, .assignType 0 0,
      .addValue 0 "x" true (.base (.value (.predefined .int))) false]).ArraysPlain := by
  intro h
  refine h 0 0 (.registered .schema (List.mem_singleton_self _)) ?_ ?_
  · exact ⟨_, _, rfl, rfl, rfl, rfl⟩
  · exact ⟨_, rfl, rfl⟩

end SmlSchema.Graph
