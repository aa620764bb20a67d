import SmlSchema.Proofs.Document.Origin
import SmlSchema.Proofs.Document.Reading
import SmlSchema.Proofs.Schema.Build
import SmlSchema.Proofs.Schema.WellFormed

/-! # Loaded schemas are well formed

The loader fills every scope in four phases. Each definition is added to a place that holds all
definitions of the phases before it, so that what a phase has made is not touched by those that
follow.
-/

namespace SmlSchema

/-! ## Texts of an element -/

/-- All texts inside the element can stand in a document. -/
def Element.Kept (e : Element) : Prop := ∀ s ∈ Node.textsOfAll e.nodes, Text.Kept s

/-- The values of a kept element are kept. -/
theorem Element.Kept.value {e : Element} (h : e.Kept) {a : Attribute} (ha : a ∈ e.ownAttributes)
    {s : String} (hs : some s ∈ a.values) : Text.Kept s := by
  refine h s (Node.mem_textsOfAll.mpr ⟨_, Element.mem_ownAttributes.mp ha, ?_⟩)
  rw [Node.texts]
  exact List.mem_cons_of_mem _ (List.mem_filterMap.mpr ⟨some s, hs, rfl⟩)

/-- The children of a kept element are kept. -/
theorem Element.Kept.child {e c : Element} (h : e.Kept) (hc : c ∈ e.children) : c.Kept := by
  intro s hs
  refine h s (Node.mem_textsOfAll.mpr ⟨_, Element.mem_children.mp hc, ?_⟩)
  rw [Element.toNode, Node.texts]
  exact List.mem_cons_of_mem _ hs

namespace Loader

variable {p q : Place} {e : Element}

theorem kept_nameOf {name : String} (he : e.Kept) (h : nameOf e = .ok name) : Text.Kept name := by
  obtain ⟨a, ha, hname⟩ := bind_eq_ok.mp h
  have hmem : a ∈ e.attributes "Name" := by
    rw [Element.one_eq_ok.mp ha]
    exact List.mem_singleton_self a
  refine he.value (Element.mem_attributes.mp hmem).1 ?_
  rw [Attribute.onlyString_eq_ok.mp hname]
  exact List.mem_singleton_self _

/-! ## Leaves -/

/-- A loaded enumeration is well formed and new, and stands behind the others. -/
theorem loadEnum_eq_ok (he : e.Kept) (h : (loadEnum p e).result = .ok q) :
    ∃ v : ValueType, v.WellFormed ∧ v.name ∉ p.scope.names .valueType ∧
      q = p.withScope { p.scope with valueTypes := p.scope.valueTypes ++ [v] } := by
  simp only [loadEnum, report, Traced.result_bind, Traced.result_lift, Traced.result_lift_violation,
    Traced.result_report, Traced.result_pure, bind_eq_ok, lift_violation_eq_ok] at h
  obtain ⟨_, -, _, -, name, hname, a, ha, labels, hlabels, scope, hscope, _, -, hq⟩ := h
  cases hq
  obtain ⟨hne, hnodup, hfree, rfl⟩ := Scope.addEnum_eq_ok.mp hscope
  have hkept : ∀ l ∈ labels, Text.Kept l := by
    intro l hl
    have hmem : a ∈ e.attributes "Values" := by
      rw [Element.one_eq_ok.mp ha]
      exact List.mem_singleton_self a
    refine he.value (Element.mem_attributes.mp hmem).1 ?_
    rw [Attribute.strings_eq_ok.mp hlabels]
    exact List.mem_map_of_mem hl
  exact ⟨_, .enum hne hnodup (kept_nameOf he hname) hkept, hfree, rfl⟩

/-- A further line keeps a struct well formed. -/
theorem loadStructValue_wellFormed {s t : Struct} {a : Attribute}
    (ha : ∀ x, some x ∈ a.values → Text.Kept x) (hs : s.WellFormed p)
    (h : loadStructValue p s a = .ok t) : t.WellFormed p ∧ t.name = s.name := by
  simp only [loadStructValue, bind_eq_ok, lift_violation_eq_ok] at h
  obtain ⟨_, -, name, hname, occurrence, -, text, htext, ⟨base, nullable⟩, htype, v, hv, ht⟩ := h
  cases ht
  obtain ⟨hnew, hopt, rfl⟩ := (Struct.newValue_eq_ok hs.optional_last).mp hv
  have hkept : ∀ {i : Nat} {x : String}, a.string i = .ok x → Text.Kept x := fun hx =>
    ha _ (List.mem_of_getElem? (Attribute.string_eq_ok.mp hx))
  refine ⟨⟨hs.kept_name, ?_, ?_, ?_⟩, rfl⟩
  · exact nodup_concat.mpr ⟨hs.nodup, hnew⟩
  · exact List.pairwise_append.mpr ⟨hs.optional_last, List.pairwise_singleton _ _, by
      intro w hw v hv
      rw [List.mem_singleton.mp hv]
      exact hopt w hw⟩
  · intro w hw
    rcases List.mem_append.mp hw with hw | hw
    · exact hs.values w hw
    · rw [List.mem_singleton.mp hw]
      exact ⟨readValueType_text htype, hkept hname, kept_readValueType htype (hkept htext)⟩

/-- A loaded struct is well formed and new, and stands behind the others. -/
theorem loadStruct_eq_ok (he : e.Kept) (h : (loadStruct p e).result = .ok q) :
    ∃ s : Struct, s.WellFormed p ∧ s.name ∉ p.scope.names .struct ∧
      q = p.withScope { p.scope with structs := p.scope.structs ++ [s] } := by
  simp only [loadStruct, report, Traced.result_bind, Traced.result_lift,
    Traced.result_lift_violation, Traced.result_report, Traced.result_pure, bind_eq_ok,
    lift_violation_eq_ok] at h
  obtain ⟨_, -, _, -, name, hname, scope, hscope, s, hs, _, -, hq⟩ := h
  cases hq
  obtain ⟨hfree, rfl⟩ := Scope.add_eq_ok.mp hscope
  have hwf : s.WellFormed p ∧ s.name = name := by
    refine foldlM_invariant (P := fun s : Struct => s.WellFormed p ∧ s.name = name) ?_ ?_ hs
    · intro a ha s t hs ht
      have hvalue := fun x => he.value (Element.mem_attributes.mp ha).1 (s := x)
      obtain ⟨hwf, hn⟩ := loadStructValue_wellFormed hvalue hs.1 ht
      exact ⟨hwf, hn.trans hs.2⟩
    · exact ⟨⟨kept_nameOf he hname, .nil, .nil, List.forall_mem_nil _⟩, rfl⟩
  refine ⟨s, hwf.1, by rw [hwf.2]; exact hfree, ?_⟩
  have hlast := map_change_last (k := Struct.name) (f := fun _ => s) (x := { name }) hfree
  simp only [Scope.modifyStruct, hlast]

/-- A loaded attribute is well formed and new, and stands behind the others. -/
theorem loadAttribute_eq_ok (he : e.Kept) (h : loadAttribute p e = .ok q) :
    ∃ a : AttributeDef, a.WellFormed p ∧ a.name ∉ p.scope.names .attribute ∧
      q = p.withScope { p.scope with attributes := p.scope.attributes ++ [a] } := by
  simp only [loadAttribute, bind_eq_ok, lift_violation_eq_ok] at h
  obtain ⟨_, -, _, -, name, hname, scope, hscope, b, hb, text, htext, t, ht, hq⟩ := h
  cases hq
  obtain ⟨hfree, rfl⟩ := Scope.add_eq_ok.mp hscope
  have hkept : Text.Kept text := by
    have hmem : b ∈ e.attributes "DataType" := by
      rw [Element.one_eq_ok.mp hb]
      exact List.mem_singleton_self b
    refine he.value (Element.mem_attributes.mp hmem).1 ?_
    rw [Attribute.onlyString_eq_ok.mp htext]
    exact List.mem_singleton_self _
  refine ⟨⟨name, some t⟩, ⟨kept_nameOf he hname, t, rfl, DataType.read_text ht,
    DataType.kept_text ht hkept⟩, hfree, ?_⟩
  have hlast := map_change_last (k := AttributeDef.name) (f := fun a => { a with type := some t })
    (x := { name }) hfree
  simp only [Scope.modifyAttribute, hlast]

end Loader

/-! ### What later phases leave alone -/

namespace Place

@[simp] theorem withScope_withScope (p : Place) (s t : Scope) :
    (p.withScope s).withScope t = p.withScope t := by
  cases p <;> rfl

@[simp] theorem withScope_scope (p : Place) : p.withScope p.scope = p := by
  cases p <;> rfl

end Place

section

variable {p : Place} {t : Scope}

/-- A struct depends on the value types of its scope only. -/
theorem Struct.WellFormed.withScope {s : Struct} (h : s.WellFormed p)
    (hv : t.valueTypes = p.scope.valueTypes) : s.WellFormed (p.withScope t) := by
  refine ⟨h.kept_name, h.nodup, h.optional_last, fun v hvalue => ?_⟩
  obtain ⟨hread, hname, htext⟩ := h.values v hvalue
  exact ⟨by rw [Loader.readValueType_withScope hv]; exact hread, hname, htext⟩

/-- An attribute depends on the value types and structs of its scope only. -/
theorem AttributeDef.WellFormed.withScope {a : AttributeDef} (h : a.WellFormed p)
    (hv : t.valueTypes = p.scope.valueTypes) (hs : t.structs = p.scope.structs) :
    a.WellFormed (p.withScope t) := by
  obtain ⟨type, htype, hread, hkept⟩ := h.type
  exact ⟨h.kept_name, type, htype, by rw [DataType.read_withScope hv hs]; exact hread, hkept⟩

namespace Place.LeavesWellFormed

theorem empty (h : p.scope = {}) : p.LeavesWellFormed := by
  refine ⟨fun category _ => ?_, ?_, ?_, ?_⟩
  · rw [h]
    cases category <;> exact .nil
  · rw [h]; nofun
  · rw [h]; nofun
  · rw [h]; nofun

/-- A new value type keeps the definitions well formed as long as nothing can refer to it. -/
theorem addValueType {v : ValueType} (h : p.LeavesWellFormed) (hs : p.scope.structs = [])
    (ha : p.scope.attributes = []) (hv : v.WellFormed) (hnew : v.name ∉ p.scope.names .valueType) :
    (p.withScope { p.scope with valueTypes := p.scope.valueTypes ++ [v] }).LeavesWellFormed := by
  refine ⟨fun category hc => ?_, fun w hw => ?_, ?_, ?_⟩
  · rw [scope_withScope]
    cases category with
    | valueType => exact nodup_concat.mpr ⟨h.nodup _ hc, hnew⟩
    | _ => exact h.nodup _ hc
  · rw [scope_withScope] at hw
    rcases List.mem_append.mp hw with hw | hw
    · exact h.valueTypes w hw
    · rw [List.mem_singleton.mp hw]
      exact hv
  · simp [hs]
  · simp [ha]

/-- A new struct keeps the definitions well formed as long as nothing can refer to it. -/
theorem addStruct {s : Struct} (h : p.LeavesWellFormed) (ha : p.scope.attributes = [])
    (hs : s.WellFormed p) (hnew : s.name ∉ p.scope.names .struct) :
    (p.withScope { p.scope with structs := p.scope.structs ++ [s] }).LeavesWellFormed := by
  refine ⟨fun category hc => ?_, ?_, fun w hw => ?_, ?_⟩
  · rw [scope_withScope]
    cases category with
    | struct => exact nodup_concat.mpr ⟨h.nodup _ hc, hnew⟩
    | _ => exact h.nodup _ hc
  · rw [scope_withScope]
    exact h.valueTypes
  · rw [scope_withScope] at hw
    rcases List.mem_append.mp hw with hw | hw
    · exact (h.structs w hw).withScope rfl
    · rw [List.mem_singleton.mp hw]
      exact hs.withScope rfl
  · simp [ha]

/-- A new attribute keeps the definitions well formed. -/
theorem addAttribute {a : AttributeDef} (h : p.LeavesWellFormed) (ha : a.WellFormed p)
    (hnew : a.name ∉ p.scope.names .attribute) :
    (p.withScope { p.scope with attributes := p.scope.attributes ++ [a] }).LeavesWellFormed := by
  refine ⟨fun category hc => ?_, ?_, fun s hs => ?_, fun b hb => ?_⟩
  · rw [scope_withScope]
    cases category with
    | «attribute» => exact nodup_concat.mpr ⟨h.nodup _ hc, hnew⟩
    | _ => exact h.nodup _ hc
  · rw [scope_withScope]
    exact h.valueTypes
  · rw [scope_withScope] at hs
    exact (h.structs s hs).withScope rfl
  · rw [scope_withScope] at hb
    rcases List.mem_append.mp hb with hb | hb
    · exact (h.attributes b hb).withScope rfl rfl
    · rw [List.mem_singleton.mp hb]
      exact ha.withScope rfl rfl

end Place.LeavesWellFormed

end

namespace Loader

variable {p q : Place} {e : Element}

/-- A place reached from `p` by loading leaves, before those that `later` still excludes. -/
def Reached (p : Place) (later : Scope → Prop) (q : Place) : Prop :=
  ∃ s : Scope, s.elements = [] ∧ later s ∧ q = p.withScope s ∧ q.LeavesWellFormed

/-- The leaves of an empty scope are loaded phase by phase. -/
theorem loadLeaves_wellFormed (he : e.Kept) (hp : p.scope = {})
    (h : (loadLeaves p e).result = .ok q) : Reached p (fun _ => True) q := by
  have hchild : ∀ {name : String} {c : Element}, c ∈ e.elements name → c.Kept := fun hc =>
    he.child (Element.mem_elements.mp hc).1
  simp only [loadLeaves, Traced.result_bind, Traced.result_foldlM, Traced.result_lift,
    bind_eq_ok] at h
  obtain ⟨p₁, h₁, p₂, h₂, h₃⟩ := h
  have hstart : Reached p (fun s => s.structs = [] ∧ s.attributes = []) p := by
    exact ⟨{}, rfl, ⟨rfl, rfl⟩, by rw [← hp, Place.withScope_scope], .empty hp⟩
  have henums : Reached p (fun s => s.structs = [] ∧ s.attributes = []) p₁ := by
    refine foldlM_invariant ?_ hstart h₁
    rintro c hc _ _ ⟨s, hse, ⟨hss, hsa⟩, rfl, hwf⟩ hq
    obtain ⟨v, hv, hnew, rfl⟩ := loadEnum_eq_ok (hchild hc) hq
    have hadd := hwf.addValueType (by simpa using hss) (by simpa using hsa) hv hnew
    rw [Place.scope_withScope, Place.withScope_withScope] at hadd ⊢
    exact ⟨{ s with valueTypes := s.valueTypes ++ [v] }, hse, ⟨hss, hsa⟩, rfl, hadd⟩
  have hstructs : Reached p (fun s => s.attributes = []) p₂ := by
    obtain ⟨s, hse, ⟨-, hsa⟩, hp₁, hwf⟩ := henums
    refine foldlM_invariant ?_ ⟨s, hse, hsa, hp₁, hwf⟩ h₂
    rintro c hc _ _ ⟨s, hse, hsa, rfl, hwf⟩ hq
    obtain ⟨d, hd, hnew, rfl⟩ := loadStruct_eq_ok (hchild hc) hq
    have hadd := hwf.addStruct (by simpa using hsa) hd hnew
    rw [Place.scope_withScope, Place.withScope_withScope] at hadd ⊢
    exact ⟨{ s with structs := s.structs ++ [d] }, hse, hsa, rfl, hadd⟩
  obtain ⟨s, hse, -, hp₂, hwf⟩ := hstructs
  refine foldlM_invariant ?_ ⟨s, hse, trivial, hp₂, hwf⟩ h₃
  rintro c hc _ _ ⟨s, hse, -, rfl, hwf⟩ hq
  obtain ⟨a, ha, hnew, rfl⟩ := loadAttribute_eq_ok (hchild hc) hq
  have hadd := hwf.addAttribute ha hnew
  rw [Place.scope_withScope, Place.withScope_withScope] at hadd ⊢
  exact ⟨{ s with attributes := s.attributes ++ [a] }, hse, trivial, rfl, hadd⟩

/-! ## Content -/

/-- An occurrence is written by one of the words. -/
theorem loadOccurrence_eq_ok {a : Attribute} {index : Nat} {o : Occurrence} :
    loadOccurrence a index = .ok o ↔
      ∃ w, (w, o) ∈ Occurrence.words ∧ a.values[index]? = some (some w) := by
  simp only [loadOccurrence, bind_eq_ok, lift_violation_eq_ok, Attribute.label_eq_ok]
  constructor
  · rintro ⟨_, ⟨-, hfalse, -⟩ | ⟨w, i, hw, hi, rfl⟩, ho⟩
    · cases hfalse
    · obtain ⟨hlt, hbeq, -⟩ := List.findIdx?_eq_some_iff_getElem.mp hi
      rw [List.length_map] at hlt
      rw [Option.bind_some, List.getElem?_eq_getElem hlt] at ho
      cases ho
      have hword : Occurrence.words[i].1 = w := by simpa using hbeq
      exact ⟨w, by rw [← hword]; exact List.getElem_mem hlt, hw⟩
  · rintro ⟨w, hmem, hw⟩
    simp only [Occurrence.words, List.mem_cons, Prod.mk.injEq, List.not_mem_nil, or_false] at hmem
    rcases hmem with ⟨rfl, rfl⟩ | ⟨rfl, rfl⟩ | ⟨rfl, rfl⟩ | ⟨rfl, rfl⟩
    · exact ⟨some 0, .inr ⟨_, 0, hw, by decide, rfl⟩, rfl⟩
    · exact ⟨some 1, .inr ⟨_, 1, hw, by decide, rfl⟩, rfl⟩
    · exact ⟨some 2, .inr ⟨_, 2, hw, by decide, rfl⟩, rfl⟩
    · exact ⟨some 3, .inr ⟨_, 3, hw, by decide, rfl⟩, rfl⟩

theorem hasWord_of_loadOccurrence {a : Attribute} {index : Nat} {o : Occurrence}
    (h : loadOccurrence a index = .ok o) : o.HasWord := by
  obtain ⟨w, hw, -⟩ := loadOccurrence_eq_ok.mp h
  exact List.mem_map.mpr ⟨_, hw, rfl⟩

theorem kept_string {a : Attribute} (ha : ∀ x, some x ∈ a.values → Text.Kept x) {index : Nat}
    {x : String} (h : a.string index = .ok x) : Text.Kept x :=
  ha x (List.mem_of_getElem? (Attribute.string_eq_ok.mp h))

/-- Loading a child element keeps content well formed. -/
theorem loadElementEntry_wellFormed {owner : String} {a : Attribute} {c d : Content}
    (ha : ∀ x, some x ∈ a.values → Text.Kept x) (hc : c.WellFormed p)
    (h : loadElementEntry p owner c a = .ok d) : d.WellFormed p := by
  obtain ⟨hna, hne, hwa, hwe⟩ := hc
  simp only [loadElementEntry, bind_eq_ok, lift_violation_eq_ok] at h
  obtain ⟨_, -, name, hname, o, ho, hd⟩ := h
  obtain ⟨hnew, q, e, hfound, rfl⟩ := Content.addElement_eq_ok.mp hd
  refine .unordered hna (nodup_concat.mpr ⟨hne, hnew⟩) hwa fun entry hentry => ?_
  rcases List.mem_append.mp hentry with hentry | hentry
  · exact hwe entry hentry
  · rw [List.mem_singleton.mp hentry]
    exact .mk (kept_string ha hname) (hasWord_of_loadOccurrence ho) hfound

/-- Loading an attribute keeps content well formed. -/
theorem loadAttributeEntry_wellFormed {owner : String} {a : Attribute} {c d : Content}
    (ha : ∀ x, some x ∈ a.values → Text.Kept x) (hc : c.WellFormed p)
    (h : loadAttributeEntry p owner c a = .ok d) : d.WellFormed p := by
  obtain ⟨hna, hne, hwa, hwe⟩ := hc
  simp only [loadAttributeEntry, bind_eq_ok, lift_violation_eq_ok] at h
  obtain ⟨_, -, name, hname, o, ho, hd⟩ := h
  have hword := hasWord_of_loadOccurrence ho
  split at hd
  · obtain ⟨hnew, q, b, hfound, rfl⟩ := Content.addAttribute_eq_ok.mp hd
    refine .unordered (nodup_concat.mpr ⟨hna, hnew⟩) hne (fun entry hentry => ?_) hwe
    rcases List.mem_append.mp hentry with hentry | hentry
    · exact hwa entry hentry
    · rw [List.mem_singleton.mp hentry]
      exact .defined (kept_string ha hname) hword hfound
  · simp only [bind_eq_ok, lift_violation_eq_ok] at hd
    obtain ⟨text, htext, t, ht, hd⟩ := hd
    obtain ⟨hnew, rfl⟩ := Content.addInline_eq_ok.mp hd
    refine .unordered (nodup_concat.mpr ⟨hna, hnew⟩) hne (fun entry hentry => ?_) hwe
    rcases List.mem_append.mp hentry with hentry | hentry
    · exact hwa entry hentry
    · rw [List.mem_singleton.mp hentry]
      exact .inline ⟨kept_string ha hname, t, rfl, DataType.read_text ht,
        DataType.kept_text ht (kept_string ha htext)⟩ hword

/-- Loaded content is well formed. -/
theorem loadContent_wellFormed {owner : String} {c : Content} (he : e.Kept)
    (h : loadContent p owner e = .ok c) : c.WellFormed p := by
  simp only [loadContent, bind_eq_ok, lift_violation_eq_ok] at h
  obtain ⟨_, -, h⟩ := h
  split at h
  · cases h
  · simp only [bind_eq_ok, lift_violation_eq_ok] at h
    obtain ⟨content, hcontent, _, -, _, -, c₁, h₁, h₂⟩ := h
    have hmem : content ∈ e.elements "UnorderedContent" := by
      rw [Element.one_eq_ok.mp hcontent]
      exact List.mem_singleton_self content
    have hkept := he.child (Element.mem_elements.mp hmem).1
    have hempty : (Content.unordered [] []).WellFormed p :=
      .unordered .nil .nil (List.forall_mem_nil _) (List.forall_mem_nil _)
    have hvalue : ∀ {name : String} {a : Attribute}, a ∈ content.attributes name →
        ∀ x, some x ∈ a.values → Text.Kept x := fun ha x =>
      hkept.value (Element.mem_attributes.mp ha).1
    have hc₁ : c₁.WellFormed p := foldlM_invariant
      (fun a ha _ _ hb hd => loadElementEntry_wellFormed (hvalue ha) hb hd) hempty h₁
    exact foldlM_invariant
      (fun a ha _ _ hb hd => loadAttributeEntry_wellFormed (hvalue ha) hb hd) hc₁ h₂

end Loader

/-! ## Elements -/

namespace Place

@[simp] theorem addElements_nil (p : Place) : p.addElements [] = p := by
  rw [addElements, List.append_nil]
  exact withScope_scope p

theorem addElements_addElements (p : Place) (es fs : List ElementDef) :
    (p.addElements es).addElements fs = p.addElements (es ++ fs) := by
  simp [addElements]

/-- A new element is changed without changing another one. -/
theorem change_new_element {p : Place} {name : String} {f : ElementDef → ElementDef}
    (h : name ∉ p.scope.names .element) {s : Scope}
    (hs : s = { p.scope with elements := p.scope.elements ++ [{ name }] }) :
    (p.withScope s).withScope (s.modifyElement name f) = p.addElements [f { name }] := by
  have hlast := map_change_last (k := ElementDef.name) (x := { name }) (f := f) h
  rw [hs, Scope.modifyElement, hlast, withScope_withScope, addElements]

/-- Elements are well formed one part after the other. -/
theorem ElementsWellFormed.append {p : Place} {es fs : List ElementDef}
    (hes : p.ElementsWellFormed es) (hfs : (p.addElements es).ElementsWellFormed fs) :
    p.ElementsWellFormed (es ++ fs) := by
  induction hes with
  | nil => simpa using hfs
  | cons kept new leaves elements content_eq content _ _ ih =>
      refine .cons kept new leaves elements content_eq content (ih ?_)
      rw [addElements_addElements]
      exact hfs

/-- The scope can be filled in the order of its kinds. -/
def ScopeWellFormed (p : Place) (s : Scope) : Prop :=
  (p.withScope s.leaves).LeavesWellFormed ∧ (p.withScope s.leaves).ElementsWellFormed s.elements

theorem scopeWellFormed_empty (p : Place) : p.ScopeWellFormed {} :=
  ⟨.empty (scope_withScope _ p), .nil⟩

end Place

namespace Loader

/-- A scope is well formed if its definitions were loaded and its elements are. -/
theorem Reached.scopeWellFormed {p r : Place} {es : List ElementDef}
    (h : Reached p (fun _ => True) r) (hes : r.ElementsWellFormed es) :
    ∃ s, r.addElements es = p.withScope s ∧ p.ScopeWellFormed s := by
  obtain ⟨s, hse, -, rfl, hwf⟩ := h
  have hleaves : { s with elements := es }.leaves = s := by
    rw [Scope.leaves, ← hse]
  refine ⟨{ s with elements := es }, ?_, ?_, ?_⟩
  · simp [Place.addElements, hse]
  · rw [hleaves]
    exact hwf
  · rw [hleaves]
    exact hes

theorem loadElement_of_not_mem {tag : String} {n : Node} (p : Place)
    (h : Element.elements ⟨tag, [n]⟩ "Element" = []) : (loadElement p n).result = .ok p := by
  match n with
  | .attribute _ => rfl
  | .element t nodes =>
      simp only [loadElement, Element.elements_singleton_eq_nil.mp h, Bool.not_false, if_true,
        Traced.result_pure]

/-- Nodes that define nothing leave the place as it is. -/
theorem loadDefinitions_of_not_mem {tag : String} {n : Node} (p : Place)
    (h : Element.elements ⟨tag, [n]⟩ "Definitions" = []) :
    (loadDefinitions p n).result = .ok p := by
  match n with
  | .attribute _ => rfl
  | .element t nodes =>
      simp only [loadDefinitions, Element.elements_singleton_eq_nil.mp h, Bool.not_false, if_true,
        Traced.result_pure]

/-- A run over nodes that passes over all but the elements of a name is a run over these. -/
theorem foldlM_nodes {f : Place → Node → Except Error Place} {tag name : String}
    (hskip : ∀ p n, Element.elements ⟨tag, [n]⟩ name = [] → f p n = .ok p) (ns : List Node)
    (p : Place) :
    ns.foldlM f p = (Element.elements ⟨tag, ns⟩ name).foldlM (fun p c => f p c.toNode) p := by
  induction ns generalizing p with
  | nil => rfl
  | cons n ns ih =>
      have hnode : [n].foldlM f p =
          (Element.elements ⟨tag, [n]⟩ name).foldlM (fun p c => f p c.toNode) p := by
        by_cases hnone : Element.elements ⟨tag, [n]⟩ name = []
        · rw [hnone, List.foldlM_cons, hskip p n hnone]
          rfl
        · match n with
          | .attribute a => exact absurd rfl hnone
          | .element t ms =>
              rw [Element.elements_singleton_eq_nil, Bool.not_eq_false] at hnone
              rw [Element.elements_singleton, if_pos hnone]
              rfl
      rw [← List.singleton_append, Element.elements_append, List.foldlM_append, List.foldlM_append,
        hnode]
      exact congrArg _ (funext fun q => ih q)

/-- Elements are loaded one after the other. -/
theorem result_loadElements (p : Place) (tag : String) (ns : List Node) :
    (loadElements p ns).result = (Element.elements ⟨tag, ns⟩ "Element").foldlM
      (fun p c => (loadElement p c.toNode).result) p := by
  rw [← foldlM_nodes (f := fun p n => (loadElement p n).result) fun p n => loadElement_of_not_mem p]
  induction ns generalizing p with
  | nil => rfl
  | cons n ns ih => simp only [loadElements, Traced.result_bind, List.foldlM_cons, ih]

/-- Inner definitions are loaded one after the other. -/
theorem result_loadInner (p : Place) (tag : String) (ns : List Node) :
    (loadInner p ns).result = (Element.elements ⟨tag, ns⟩ "Definitions").foldlM
      (fun p c => (loadDefinitions p c.toNode).result) p := by
  rw [← foldlM_nodes (f := fun p n => (loadDefinitions p n).result)
    fun p n => loadDefinitions_of_not_mem p]
  induction ns generalizing p with
  | nil => rfl
  | cons n ns ih => simp only [loadInner, Traced.result_bind, List.foldlM_cons, ih]

theorem loadInner_of_not_mem {tag : String} (p : Place) {ns : List Node}
    (h : Element.elements ⟨tag, ns⟩ "Definitions" = []) : (loadInner p ns).result = .ok p := by
  rw [result_loadInner p tag, h]
  rfl

mutual

/-- All loaded elements of a scope are well formed. -/
theorem loadElements_wellFormed (p q : Place) : ∀ ns : List Node,
    (∀ s ∈ Node.textsOfAll ns, Text.Kept s) → (loadElements p ns).result = .ok q →
      ∃ es, p.ElementsWellFormed es ∧ q = p.addElements es
  | [], _, h => by
      cases h
      exact ⟨[], .nil, (Place.addElements_nil p).symm⟩
  | n :: ns, hkept, h => by
      simp only [loadElements, Traced.result_bind, bind_eq_ok] at h
      obtain ⟨r, hr, hq⟩ := h
      obtain ⟨es, hes, rfl⟩ := loadElement_wellFormed p r n
        (fun s hs => hkept s (by simp [Node.textsOfAll, hs])) hr
      obtain ⟨fs, hfs, rfl⟩ := loadElements_wellFormed _ q ns
        (fun s hs => hkept s (by simp [Node.textsOfAll, hs])) hq
      exact ⟨es ++ fs, hes.append hfs, Place.addElements_addElements p es fs⟩

/-- A loaded element is well formed with all that is inside it. -/
theorem loadElement_wellFormed (p q : Place) : ∀ n : Node, (∀ s ∈ n.texts, Text.Kept s) →
    (loadElement p n).result = .ok q → ∃ es, p.ElementsWellFormed es ∧ q = p.addElements es
  | .attribute _, _, h => by
      cases h
      exact ⟨[], .nil, (Place.addElements_nil p).symm⟩
  | .element tag nodes, hkept, h => by
      have he : Element.Kept ⟨tag, nodes⟩ := fun s hs => hkept s (by simp [Node.texts, hs])
      rw [loadElement] at h
      split at h
      · cases h
        exact ⟨[], .nil, (Place.addElements_nil p).symm⟩
      · simp only [report, Traced.result_bind, Traced.result_lift, Traced.result_lift_violation,
          Traced.result_report, Traced.result_pure, bind_eq_ok, lift_violation_eq_ok] at h
        obtain ⟨name, hname, scope, hscope, _, -, _, -, _, -, defs, hdefs, inner, hinner, content,
          hcontent, hq⟩ := h
        cases hq
        obtain ⟨hfree, rfl⟩ := Scope.add_eq_ok.mp hscope
        have hone : (Element.elements ⟨tag, nodes⟩ "Definitions").length ≤ 1 := by
          rw [Element.atMostOne_eq_ok.mp hdefs]
          cases defs <;> simp
        obtain ⟨s, rfl, hleaves, hes⟩ :=
          loadInner_wellFormed (p.inside name {}) inner tag nodes he rfl hone hinner
        have hc := loadContent_wellFormed he hcontent
        refine ⟨[⟨name, s.valueTypes, s.structs, s.attributes, s.elements, some content⟩],
          .cons (kept_nameOf he hname) hfree hleaves hes rfl hc .nil, ?_⟩
        exact Place.change_new_element hfree rfl

/-- The inner scope of a loaded element is well formed. -/
theorem loadInner_wellFormed (p q : Place) (tag : String) : ∀ ns : List Node,
    Element.Kept ⟨tag, ns⟩ → p.scope = {} →
    (Element.elements ⟨tag, ns⟩ "Definitions").length ≤ 1 →
    (loadInner p ns).result = .ok q → ∃ s, q = p.withScope s ∧ p.ScopeWellFormed s
  | [], _, hp, _, h => by
      cases h
      exact ⟨{}, by rw [← hp, Place.withScope_scope], p.scopeWellFormed_empty⟩
  | n :: ns, hkept, hp, hone, h => by
      simp only [loadInner, Traced.result_bind, bind_eq_ok] at h
      obtain ⟨r, hr, hq⟩ := h
      rw [← List.singleton_append, Element.elements_append, List.length_append] at hone
      by_cases hn : Element.elements ⟨tag, [n]⟩ "Definitions" = []
      · rw [loadDefinitions_of_not_mem p hn] at hr
        cases hr
        exact loadInner_wellFormed p q tag ns
          (fun s hs => hkept s (by simp [Node.textsOfAll, hs])) hp (by omega) hq
      · -- The one node with definitions: those that follow define nothing.
        have hpos := List.length_pos_iff.mpr hn
        have hrest : Element.elements ⟨tag, ns⟩ "Definitions" = [] :=
          List.length_eq_zero_iff.mp (by omega)
        rw [loadInner_of_not_mem r hrest] at hq
        cases hq
        exact loadDefinitions_wellFormed p _ n
          (fun s hs => hkept s (by simp [Node.textsOfAll, hs])) hp hr

/-- A loaded scope is well formed. -/
theorem loadDefinitions_wellFormed (p q : Place) : ∀ n : Node, (∀ s ∈ n.texts, Text.Kept s) →
    p.scope = {} → (loadDefinitions p n).result = .ok q →
      ∃ s, q = p.withScope s ∧ p.ScopeWellFormed s
  | .attribute _, _, hp, h => by
      cases h
      exact ⟨{}, by rw [← hp, Place.withScope_scope], p.scopeWellFormed_empty⟩
  | .element tag nodes, hkept, hp, h => by
      have he : Element.Kept ⟨tag, nodes⟩ := fun s hs => hkept s (by simp [Node.texts, hs])
      rw [loadDefinitions] at h
      split at h
      · cases h
        exact ⟨{}, by rw [← hp, Place.withScope_scope], p.scopeWellFormed_empty⟩
      · simp only [Traced.result_bind, Traced.result_lift_violation, bind_eq_ok,
          lift_violation_eq_ok] at h
        obtain ⟨_, -, _, -, r, hr, hq⟩ := h
        have hr := loadLeaves_wellFormed he hp hr
        obtain ⟨es, hes, rfl⟩ := loadElements_wellFormed r q nodes he hq
        exact hr.scopeWellFormed hes

end

/-! ## Schemas -/

/-- The root is one of the outermost elements. -/
theorem loadRoot_eq_ok {e : Element} {s t : Schema} (h : loadRoot e s = .ok t) :
    ∃ name ∈ s.definitions.names .element, t = { s with root := some name } := by
  obtain ⟨found, -, h⟩ := bind_eq_ok.mp h
  cases found with
  | none =>
      obtain ⟨d, hd, rfl⟩ := Schema.setDefaultRoot_eq_ok.mp h
      exact ⟨d.name, by simp [Scope.names, hd], rfl⟩
  | some a =>
      obtain ⟨name, -, h⟩ := bind_eq_ok.mp h
      split at h
      · exact ⟨name, Schema.setRoot_eq_ok.mp h⟩
      · cases h

/-- A loaded schema is well formed. -/
theorem loadSchema_wellFormed {e : Element} {s : Schema} (he : e.Kept)
    (h : (loadSchema e).result = .ok s) : s.WellFormed := by
  simp only [loadSchema, report, Traced.result_bind, Traced.result_lift,
    Traced.result_lift_violation, Traced.result_report, Traced.result_pure, bind_eq_ok,
    lift_violation_eq_ok] at h
  obtain ⟨_, -, _, -, _, -, p, hp, q, hq, t, ht, _, -, _, -, hs⟩ := h
  cases hs
  obtain ⟨es, hes, rfl⟩ := loadElements_wellFormed p q e.nodes he hq
  obtain ⟨scope, hscope, hleaves, helements⟩ :=
    (loadLeaves_wellFormed he rfl hp).scopeWellFormed hes
  obtain ⟨name, hname, rfl⟩ := loadRoot_eq_ok ht
  rw [hscope] at hname ⊢
  exact ⟨hleaves, helements, name, rfl, hname⟩

/-- Wrapping errors does not touch a schema that was loaded. -/
theorem wrap_eq_ok {t : Traced Error Schema} {s : Schema} :
    (wrap t).result = .ok s ↔ t.result = .ok s := by
  unfold wrap
  split
  · rename_i r hr
    simp [hr]
  · rename_i digits hr
    simp [hr]
  · rename_i e _ hr
    simp [hr]

end Loader

/-- Every schema that a text holds is well formed. -/
theorem Schema.wellFormed_of_parse {text : String} {s : Schema}
    (h : (Schema.parse text).result = .ok s) : s.WellFormed := by
  rw [Schema.parse, Loader.wrap_eq_ok, Traced.result_bind, Traced.result_lift, bind_eq_ok] at h
  obtain ⟨d, hd, hs⟩ := h
  have hkept := Document.linesKept_of_parse (mapError_eq_ok.mp hd)
  refine Loader.loadSchema_wellFormed (fun t ht => hkept t ?_) hs
  refine List.mem_append_left _ ?_
  rw [Element.toNode, Node.texts]
  exact List.mem_cons_of_mem _ ht

/-- The document that the characters of a text hold. -/
def Document.parseChars (cs : List Char) : Except ReadError Document := do
  let rows ← rowsFrom 1 ((Text.lineChars cs).map String.ofList)
  ofRows rows

theorem Text.toList_append_eq {s t : String} {cs ds : List Char} (hs : s.toList = cs)
    (ht : t.toList = ds) : (s ++ t).toList = cs ++ ds := by
  rw [String.toList_append, hs, ht]

namespace Schema

/-- The schema that a text holds, by its characters. To find them by evaluation takes quadratic
time, while a literal is made of its characters by definition. -/
theorem parse_of_toList {text : String} {cs : List Char} {s : Schema} (h : text.toList = cs)
    (hs : (Document.parseChars cs).toOption.bind
      (fun d => (Loader.loadSchema d.root).result.toOption) = some s) :
    (parse text).result = .ok s := by
  obtain ⟨d, hd, hs⟩ := Option.bind_eq_some_iff.mp hs
  have hparse : Document.parse text = .ok d := by
    subst h
    exact eq_ok_of_toOption hd
  rw [parse, Loader.wrap_eq_ok, Traced.result_bind, Traced.result_lift, hparse]
  exact eq_ok_of_toOption hs

/-- A schema with an enumeration, a struct of it, and an element that holds an array of the struct
and elements of its own kind. -/
def treeText : String :=
  "Schema\nEnumType\nName E\nValues x y\nEnd\nStruct\nName P\nValue a Required E\nEnd\nElement\n" ++
    "Name A\nUnorderedContent\nAttribute c Optional P?[1..N]\nElement A Repeated*\nEnd\nEnd\nEnd"

def treeContent : Content :=
  .unordered [.inline ⟨"c", some ⟨.struct [] "P", true, some ⟨.repeatedPlus, false⟩⟩⟩ .optional]
    [⟨[], "A", .repeatedStar⟩]

def treeSchema : Schema where
  definitions := {
    valueTypes := [.enum "E" ["x", "y"]]
    structs := [⟨"P", [⟨"a", false, .valueType [] "E", false⟩]⟩]
    elements := [{ name := "A", content := some treeContent }] }
  root := some "A"

theorem parse_treeText : (parse treeText).result = .ok treeSchema :=
  parse_of_toList (Text.toList_append_eq String.toList_ofList String.toList_ofList)
    (by decide +kernel)

end Schema

end SmlSchema
