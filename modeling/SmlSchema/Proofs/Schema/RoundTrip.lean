import SmlSchema.Proofs.Schema.Loading
import SmlSchema.Proofs.Schema.Words

/-! # Reading a schema that was written

A well formed schema can be written. What is written is loaded in the order in which the schema is
made: every definition is read at the place where it was made, so that each name is found where it
was found before, and the loader gives the schema back.
-/

namespace SmlSchema

namespace Loader

variable {p : Place} {tag name : String} {nodes : List Node}

theorem nameOf_line (h : Element.attributes ⟨tag, nodes⟩ "Name" = []) :
    nameOf ⟨tag, textLine "Name" name :: nodes⟩ = .ok name := by
  have hline : Element.attributes ⟨tag, textLine "Name" name :: nodes⟩ "Name" =
      [⟨"Name", [some name], by simp⟩] := by
    rw [← List.singleton_append, Element.attributes_append, h]
    simp [textLine, Element.attributes_singleton, sameName_grammarNames, grammarNames]
  exact bind_eq_ok.mpr ⟨_, Element.one_eq_ok.mpr hline, Attribute.onlyString_eq_ok.mpr rfl⟩

/-! ### Definitions without elements -/

/-- The element that is written for a definition: its name, and then its lines. -/
def leafOf (tag name : String) (lines : List Attribute) : Element :=
  ⟨tag, textLine "Name" name :: lines.map .attribute⟩

/-- All lines are of one kind, which is not that of the name. -/
structure LinesOf (kind : String) (lines : List Attribute) : Prop where
  known : grammarNames.contains kind
  apart : kind ≠ "Name"
  names : ∀ a ∈ lines, a.name = kind

section

variable {kind : String} {lines : List Attribute}

/-- The node of a definition can be written if its lines can. -/
theorem leafOf_written (htag : tag ∈ grammarNames) (hname : Text.Kept name)
    (hlines : ∀ a ∈ lines, (Node.attribute a).Written) :
    (leafOf tag name lines).toNode.Written := by
  refine .element htag fun n hn => ?_
  rcases List.mem_cons.mp hn with rfl | hn
  · exact .line (by simp [grammarNames]) hname (List.forall_mem_nil _)
  · obtain ⟨a, ha, rfl⟩ := List.mem_map.mp hn
    exact hlines a ha

theorem assureNoElements_leafOf : (leafOf tag name lines).assureNoElements = .ok () := by
  refine Element.assureNoElements_eq_ok.mpr ?_
  rw [leafOf, ← List.singleton_append, Element.children_append, Element.children_map_attribute]
  rfl

theorem LinesOf.assureAttributeNames (h : LinesOf kind lines) :
    (leafOf tag name lines).assureAttributeNames ["Name", kind] = .ok () := by
  refine Element.assureAttributeNames_eq_ok.mpr fun a ha => Element.hasName_of_mem ?_
  rw [leafOf, ← List.singleton_append, Element.ownAttributes_append,
    Element.ownAttributes_map_attribute] at ha
  rcases List.mem_append.mp ha with ha | ha
  · rw [List.mem_singleton.mp ha]
    exact List.mem_cons_self
  · rw [h.names a ha]
    exact List.mem_cons_of_mem _ List.mem_cons_self

theorem LinesOf.nameOf (h : LinesOf kind lines) :
    nameOf (leafOf tag name lines) = .ok name := by
  refine nameOf_line ?_
  rw [Element.attributes_map_attribute _ h.names, sameName_grammarNames h.known (by decide)]
  simp [h.apart]

/-- The lines of a definition are found again under their name. -/
theorem LinesOf.attributes (h : LinesOf kind lines) :
    (leafOf tag name lines).attributes kind = lines := by
  have hname : Text.sameName "Name" kind = false := by
    rw [sameName_grammarNames (by decide) h.known]
    simpa using h.apart.symm
  have hkind : Text.sameName kind kind = true := beq_self_eq_true _
  rw [leafOf, ← List.singleton_append, Element.attributes_append,
    Element.attributes_map_attribute _ h.names, textLine, Element.attributes_singleton, hname,
    hkind]
  rfl

end

/-! ### Enumerations -/

/-- The node of an enumeration loads as the enumeration. -/
theorem loadEnum_node {v : ValueType} (h : v.WellFormed) :
    ∃ e : Element, v.node = .ok e.toNode ∧ e.name = "EnumType" ∧ e.toNode.Written ∧
      ∀ p : Place, v.name ∉ p.scope.names .valueType → (loadEnum p e).result =
        .ok (p.withScope { p.scope with valueTypes := p.scope.valueTypes ++ [v] }) := by
  obtain ⟨hne, hnodup, hkept, hlabels⟩ := h
  rename_i name labels
  have hmap : labels.map some ≠ [] := by simpa using hne
  refine ⟨leafOf "EnumType" name [⟨"Values", labels.map some, hmap⟩], ?_, rfl, ?_,
    fun p hnew => ?_⟩
  · simp only [ValueType.node, Attribute.make, dif_neg hmap]
    rfl
  · refine leafOf_written (by simp [grammarNames]) hkept (List.forall_mem_singleton.mpr ?_)
    refine .ofAttribute (by simp [grammarNames]) fun s hs => ?_
    obtain ⟨l, hl, heq⟩ := List.mem_map.mp hs
    cases heq
    exact hlabels s hl
  · have hlines : LinesOf "Values" [⟨"Values", labels.map some, hmap⟩] :=
      ⟨by decide, by decide, List.forall_mem_singleton.mpr rfl⟩
    simp only [loadEnum, report, Traced.result_bind, Traced.result_lift,
      Traced.result_lift_violation, Traced.result_report, Traced.result_pure, bind_eq_ok,
      lift_violation_eq_ok]
    exact ⟨(), assureNoElements_leafOf, (), hlines.assureAttributeNames, name, hlines.nameOf, _,
      Element.one_eq_ok.mpr hlines.attributes, labels, Attribute.strings_eq_ok.mpr rfl, _,
      Scope.addEnum_eq_ok.mpr ⟨hne, hnodup, hnew, rfl⟩, (), trivial, rfl⟩

/-! ### Structs -/

/-- The line of a value. -/
def valueLine (v : StructValue) : Attribute :=
  ⟨"Value", [some v.name, some (if v.optional then "Optional" else "Required"), some v.typeText],
    by simp⟩

/-- The line of a struct's value loads as the value. -/
theorem loadStructValue_valueLine {s : Struct} {v : StructValue}
    (hs : s.values.Pairwise fun v w => v.optional → w.optional) (hv : v.WellFormed p)
    (hnew : v.name ∉ s.values.map (·.name)) (hopt : ∀ w ∈ s.values, w.optional → v.optional) :
    loadStructValue p s (valueLine v) = .ok (s.push v) := by
  have hword : (some (if v.optional then 1 else 0) == some 1) = v.optional := by
    cases v.optional <;> rfl
  simp only [loadStructValue, bind_eq_ok, lift_violation_eq_ok]
  refine ⟨(), Attribute.assureValueCount_eq_ok.mpr rfl, v.name, Attribute.string_eq_ok.mpr rfl,
    some (if v.optional then 1 else 0), Attribute.label_eq_ok.mpr (.inr ⟨_, _, rfl, ?_, rfl⟩),
    v.typeText, Attribute.string_eq_ok.mpr rfl, _, hv.read_typeText, v,
    (Struct.newValue_eq_ok hs).mpr ⟨hnew, ?_, ?_⟩, rfl⟩
  · cases v.optional <;> decide
  · rw [hword]
    exact hopt
  · rw [hword]

/-- The lines of a struct give back its values. -/
theorem loadStructValues_valueLines {s : Struct} (hs : s.WellFormed p) :
    loadStructValues p { name := s.name } (s.values.map valueLine) = .ok s := by
  have hlines : List.Forall₂ (fun v a => a = valueLine v) s.values (s.values.map valueLine) :=
    List.forall₂_map_right_iff.mpr (List.forall₂_same.mpr fun _ _ => rfl)
  refine foldlM_rebuild (g := fun vs => (⟨s.name, vs⟩ : Struct)) hlines ?_
  rintro done v _ rfl hdone
  have hpair := hs.optional_last.sublist hdone.sublist
  refine loadStructValue_valueLine (List.pairwise_append.mp hpair).1
    (hs.values v (hdone.subset (by simp))) (not_mem_of_prefix_nodup hdone hs.nodup) fun w hw => ?_
  exact (List.pairwise_append.mp hpair).2.2 w hw v (by simp)

theorem nodes_eq_valueLines (s : Struct) :
    s.values.map StructValue.node = (s.values.map valueLine).map Node.attribute := by
  rw [List.map_map]
  rfl

theorem valueLine_written {v : StructValue} (h : v.WellFormed p) :
    (Node.attribute (valueLine v)).Written := by
  refine .ofAttribute (by simp [valueLine, grammarNames]) fun x hx => ?_
  simp only [valueLine, List.mem_cons, Option.some.injEq, List.not_mem_nil, or_false] at hx
  rcases hx with rfl | rfl | rfl
  · exact h.kept_name
  · cases v.optional <;> decide
  · exact h.kept_typeText

/-- The node of a struct loads as the struct. -/
theorem loadStruct_node {s : Struct} (h : s.WellFormed p) :
    ∃ e : Element, s.node = e.toNode ∧ e.name = "Struct" ∧ e.toNode.Written ∧
      ∀ q : Place, s.WellFormed q → s.name ∉ q.scope.names .struct → (loadStruct q e).result =
        .ok (q.withScope { q.scope with structs := q.scope.structs ++ [s] }) := by
  refine ⟨leafOf "Struct" s.name (s.values.map valueLine),
    by rw [leafOf, ← nodes_eq_valueLines]; rfl, rfl, ?_, fun q hq hnew => ?_⟩
  · refine leafOf_written (by simp [grammarNames]) h.kept_name ?_
    exact List.forall_mem_map.mpr fun v hv => valueLine_written (h.values v hv)
  · have hlines : LinesOf "Value" (s.values.map valueLine) :=
      ⟨by decide, by decide, List.forall_mem_map.mpr fun _ _ => rfl⟩
    have hlast :=
      map_change_last (k := Struct.name) (f := fun _ => s) (x := { name := s.name }) hnew
    simp only [loadStruct, report, Traced.result_bind, Traced.result_lift,
      Traced.result_lift_violation, Traced.result_report, Traced.result_pure, bind_eq_ok,
      lift_violation_eq_ok]
    refine ⟨(), assureNoElements_leafOf, (), hlines.assureAttributeNames, s.name,
      hlines.nameOf, _, Scope.add_eq_ok.mpr ⟨hnew, rfl⟩, s, ?_, (), trivial, ?_⟩
    · rw [hlines.attributes]
      exact loadStructValues_valueLines hq
    · simp only [Scope.modifyStruct, hlast]

/-! ### Attributes -/

/-- The node of an attribute loads as the attribute. -/
theorem loadAttribute_node {a : AttributeDef} (h : a.WellFormed p) :
    ∃ e : Element, a.node = .ok e.toNode ∧ e.name = "Attribute" ∧ e.toNode.Written ∧
      ∀ q : Place, a.WellFormed q → a.name ∉ q.scope.names .attribute → loadAttribute q e =
        .ok (q.withScope { q.scope with attributes := q.scope.attributes ++ [a] }) := by
  obtain ⟨name, type⟩ := a
  obtain ⟨t, rfl, -, hkept⟩ := h.type
  refine ⟨leafOf "Attribute" name [⟨"DataType", [some t.text], by simp⟩], ?_, rfl, ?_,
    fun q hq hnew => ?_⟩
  · simp only [AttributeDef.node, AttributeDef.getType]
    rfl
  · refine leafOf_written (by simp [grammarNames]) h.kept_name ?_
    exact List.forall_mem_singleton.mpr
      (.line (m := []) (by simp [grammarNames]) hkept (List.forall_mem_nil _))
  · obtain ⟨_, ⟨⟩, hread, -⟩ := hq.type
    have hlines : LinesOf "DataType" [⟨"DataType", [some t.text], by simp⟩] :=
      ⟨by decide, by decide, List.forall_mem_singleton.mpr rfl⟩
    have hlast := map_change_last (k := AttributeDef.name) (x := { name })
      (f := fun b => { b with type := some t }) hnew
    simp only [loadAttribute, bind_eq_ok, lift_violation_eq_ok]
    refine ⟨(), assureNoElements_leafOf, (), hlines.assureAttributeNames, name, hlines.nameOf,
      _, Scope.add_eq_ok.mpr ⟨hnew, rfl⟩, _, Element.one_eq_ok.mpr hlines.attributes, t.text,
      Attribute.onlyString_eq_ok.mpr rfl, t, hread, ?_⟩
    simp only [Scope.modifyAttribute, hlast]
    rfl

/-! ### All leaves of a scope -/

/-- The nodes of all value types of a scope load as these. -/
theorem loadEnum_nodes (h : p.LeavesWellFormed) :
    ∃ es : List Element, p.scope.valueTypes.mapM ValueType.node = .ok (es.map Element.toNode) ∧
      (∀ e ∈ es, e.toNode.Written ∧ e.name = "EnumType") ∧
      es.foldlM (fun q e => (loadEnum q e).result) (p.withScope {}) =
        .ok (p.withScope { valueTypes := p.scope.valueTypes }) := by
  obtain ⟨es, hes⟩ := exists_forall₂ fun v hv => loadEnum_node (h.valueTypes v hv)
  refine ⟨es, ?_, forall_of_forall₂ hes fun _ _ hve => ⟨hve.2.2.1, hve.2.1⟩, ?_⟩
  · exact mapM_eq_ok.mpr (List.forall₂_map_right_iff.mpr (hes.imp fun _ _ hve => hve.1))
  · refine foldlM_rebuild (g := fun vs => p.withScope { valueTypes := vs }) hes ?_
    rintro done v e ⟨-, -, -, hload⟩ hdone
    have hnew := not_mem_of_prefix_nodup hdone (h.nodup .valueType nofun)
    rw [hload _ (by rw [Place.scope_withScope]; exact hnew), Place.scope_withScope,
      Place.withScope_withScope]

/-- The nodes of all structs of a scope load as these. -/
theorem loadStruct_nodes (h : p.LeavesWellFormed) :
    ∃ es : List Element, p.scope.structs.map Struct.node = es.map Element.toNode ∧
      (∀ e ∈ es, e.toNode.Written ∧ e.name = "Struct") ∧
      es.foldlM (fun q e => (loadStruct q e).result)
          (p.withScope { valueTypes := p.scope.valueTypes }) =
        .ok (p.withScope { valueTypes := p.scope.valueTypes, structs := p.scope.structs }) := by
  obtain ⟨es, hes⟩ := exists_forall₂ fun s hs => loadStruct_node (h.structs s hs)
  refine ⟨es, ?_, forall_of_forall₂ hes fun _ _ hse => ⟨hse.2.2.1, hse.2.1⟩, ?_⟩
  · have hnodes : List.Forall₂ (· = ·) (p.scope.structs.map Struct.node) (es.map Element.toNode) :=
      List.forall₂_map_left_iff.mpr
        (List.forall₂_map_right_iff.mpr (hes.imp fun _ _ hse => hse.1))
    rwa [List.forall₂_eq_eq_eq] at hnodes
  · refine foldlM_rebuild
      (g := fun ss => p.withScope { valueTypes := p.scope.valueTypes, structs := ss }) hes ?_
    rintro done s e ⟨-, -, -, hload⟩ hdone
    have hnew := not_mem_of_prefix_nodup hdone (h.nodup .struct nofun)
    have hs := (h.structs s (hdone.subset (by simp))).withScope (t := {
      valueTypes := p.scope.valueTypes, structs := done }) rfl
    rw [hload _ hs (by rw [Place.scope_withScope]; exact hnew), Place.scope_withScope,
      Place.withScope_withScope]

/-- The nodes of all attributes of a scope load as these. -/
theorem loadAttribute_nodes (h : p.LeavesWellFormed) :
    ∃ es : List Element,
      p.scope.attributes.mapM AttributeDef.node = .ok (es.map Element.toNode) ∧
      (∀ e ∈ es, e.toNode.Written ∧ e.name = "Attribute") ∧
      es.foldlM loadAttribute
          (p.withScope { valueTypes := p.scope.valueTypes, structs := p.scope.structs }) =
        .ok (p.withScope p.scope.leaves) := by
  obtain ⟨es, hes⟩ := exists_forall₂ fun a ha => loadAttribute_node (h.attributes a ha)
  refine ⟨es, ?_, forall_of_forall₂ hes fun _ _ hae => ⟨hae.2.2.1, hae.2.1⟩, ?_⟩
  · exact mapM_eq_ok.mpr (List.forall₂_map_right_iff.mpr (hes.imp fun _ _ hae => hae.1))
  · refine foldlM_rebuild (g := fun as => p.withScope {
      valueTypes := p.scope.valueTypes, structs := p.scope.structs, attributes := as }) hes ?_
    rintro done a e ⟨-, -, -, hload⟩ hdone
    have hnew := not_mem_of_prefix_nodup hdone (h.nodup .attribute nofun)
    have ha := (h.attributes a (hdone.subset (by simp))).withScope (t := {
      valueTypes := p.scope.valueTypes, structs := p.scope.structs, attributes := done }) rfl rfl
    rw [hload _ ha (by rw [Place.scope_withScope]; exact hnew), Place.scope_withScope,
      Place.withScope_withScope]

/-- The leaves of a scope are written, and loading them fills the empty scope with them. -/
theorem loadLeaves_nodes (h : p.LeavesWellFormed) :
    ∃ es : List Element, p.scope.leafNodes = .ok (es.map Element.toNode) ∧
      (∀ e ∈ es, e.toNode.Written ∧ e.name ∈ ["EnumType", "Struct", "Attribute"]) ∧
      ∀ tag more, (∀ name ∈ ["EnumType", "Struct", "Attribute"],
          Element.elements ⟨tag, more⟩ name = []) →
        (loadLeaves (p.withScope {}) ⟨tag, es.map Element.toNode ++ more⟩).result =
          .ok (p.withScope p.scope.leaves) := by
  obtain ⟨enums, hnodes₁, hnames₁, hrun₁⟩ := loadEnum_nodes h
  obtain ⟨structs, hnodes₂, hnames₂, hrun₂⟩ := loadStruct_nodes h
  obtain ⟨attributes, hnodes₃, hnames₃, hrun₃⟩ := loadAttribute_nodes h
  refine ⟨enums ++ structs ++ attributes, ?_, ?_, fun tag more hmore => ?_⟩
  · simp only [Scope.leafNodes, hnodes₁, hnodes₂, hnodes₃, ok_bind, List.map_append, pure_eq_ok]
  · intro e he
    rcases List.mem_append.mp he with he | he
    · rcases List.mem_append.mp he with he | he
      · exact ⟨(hnames₁ e he).1, by simp [(hnames₁ e he).2]⟩
      · exact ⟨(hnames₂ e he).1, by simp [(hnames₂ e he).2]⟩
    · exact ⟨(hnames₃ e he).1, by simp [(hnames₃ e he).2]⟩
  · have hfind (name : String) (hname : name ∈ ["EnumType", "Struct", "Attribute"]) :
        Element.elements ⟨tag, (enums ++ structs ++ attributes).map Element.toNode ++ more⟩ name =
          (if Text.sameName "EnumType" name then enums else []) ++
          (if Text.sameName "Struct" name then structs else []) ++
          (if Text.sameName "Attribute" name then attributes else []) := by
      rw [Element.elements_append, hmore name hname, List.append_nil, List.map_append,
        List.map_append, Element.elements_append, Element.elements_append,
        Element.elements_map_toNode _ fun e he => (hnames₁ e he).2,
        Element.elements_map_toNode _ fun e he => (hnames₂ e he).2,
        Element.elements_map_toNode _ fun e he => (hnames₃ e he).2]
    simp only [loadLeaves, Traced.result_bind, Traced.result_foldlM, Traced.result_lift,
      bind_eq_ok, loadAttributes]
    rw [hfind "EnumType" (by simp), hfind "Struct" (by simp), hfind "Attribute" (by simp)]
    simp only [sameName_grammarNames, grammarNames, List.contains_cons, List.contains_nil,
      String.reduceBEq, Bool.or_false, Bool.or_true, String.reduceEq, decide_true, decide_false,
      Bool.false_eq_true, if_true, if_false, List.append_nil, List.nil_append]
    exact ⟨_, hrun₁, _, hrun₂, hrun₃⟩

/-! ### Content -/

/-- An occurrence that has a word is written by it. -/
theorem word_of_hasWord {o : Occurrence} (h : o.HasWord) :
    ∃ w, o.word = .ok w ∧ (w, o) ∈ Occurrence.words ∧ Text.Kept w := by
  have hall : ∀ r ∈ Occurrence.words, r.2.word = .ok r.1 ∧ Text.Kept r.1 := by decide
  obtain ⟨⟨w, _⟩, hmem, rfl⟩ := List.mem_map.mp h
  exact ⟨w, (hall _ hmem).1, hmem, (hall _ hmem).2⟩

/-- The line of a child element loads as the entry. -/
theorem loadElementEntry_node {entry : ElementEntry} (h : entry.WellFormed p) :
    ∃ a : Attribute, entry.node = .ok (.attribute a) ∧ a.name = "Element" ∧
      (Node.attribute a).Written ∧
      ∀ owner as es, entry.name ∉ es.map (·.name) →
        loadElementEntry p owner (.unordered as es) a = .ok (.unordered as (es ++ [entry])) := by
  obtain ⟨hkept, hword, hfound⟩ := h
  rename_i name o
  obtain ⟨w, hw, hmem, hwkept⟩ := word_of_hasWord hword
  refine ⟨⟨"Element", [some name, some w], by simp⟩, ?_, rfl, ?_, fun owner as es hnew => ?_⟩
  · simp only [ElementEntry.node, hw]
    rfl
  · exact .line (m := [w]) (by simp [grammarNames]) hkept (by simpa using hwkept)
  · simp only [loadElementEntry, bind_eq_ok, lift_violation_eq_ok]
    exact ⟨(), Attribute.assureValueCount_eq_ok.mpr rfl, name, Attribute.string_eq_ok.mpr rfl, o,
      loadOccurrence_eq_ok.mpr ⟨w, hmem, rfl⟩,
      Content.addElement_eq_ok.mpr ⟨hnew, _, _, hfound, rfl⟩⟩

/-- The line of an attribute loads as the entry. -/
theorem loadAttributeEntry_node {entry : AttributeEntry} (h : entry.WellFormed p) :
    ∃ a : Attribute, entry.node = .ok (.attribute a) ∧ a.name = "Attribute" ∧
      (Node.attribute a).Written ∧
      ∀ owner as es, entry.name ∉ as.map (·.name) →
        loadAttributeEntry p owner (.unordered as es) a = .ok (.unordered (as ++ [entry]) es) := by
  cases h with
  | defined hkept hword hfound =>
      rename_i name o
      obtain ⟨w, hw, hmem, hwkept⟩ := word_of_hasWord hword
      refine ⟨⟨"Attribute", [some name, some w], by simp⟩, ?_, rfl, ?_, fun owner as es hnew => ?_⟩
      · simp only [AttributeEntry.node, AttributeEntry.occurrence, hw]
        rfl
      · exact .line (m := [w]) (by simp [grammarNames]) hkept (by simpa using hwkept)
      · simp only [loadAttributeEntry, bind_eq_ok, lift_violation_eq_ok]
        refine ⟨(), Attribute.assureValueBounds_eq_ok.mpr rfl, name,
          Attribute.string_eq_ok.mpr rfl, o, loadOccurrence_eq_ok.mpr ⟨w, hmem, rfl⟩, ?_⟩
        exact Content.addAttribute_eq_ok.mpr ⟨hnew, _, _, hfound, rfl⟩
  | inline hdef hword =>
      rename_i d o
      obtain ⟨name, type⟩ := d
      obtain ⟨t, rfl, hread, htkept⟩ := hdef.type
      obtain ⟨w, hw, hmem, hwkept⟩ := word_of_hasWord hword
      refine ⟨⟨"Attribute", [some name, some w, some t.text], by simp⟩, ?_, rfl, ?_,
        fun owner as es hnew => ?_⟩
      · simp only [AttributeEntry.node, AttributeEntry.occurrence, hw]
        rfl
      · refine .line (m := [w, t.text]) (by simp [grammarNames]) hdef.kept_name fun s hs => ?_
        rcases List.mem_cons.mp hs with rfl | hs
        · exact hwkept
        · rw [List.mem_singleton.mp hs]
          exact htkept
      · simp only [loadAttributeEntry, bind_eq_ok, lift_violation_eq_ok]
        refine ⟨(), Attribute.assureValueBounds_eq_ok.mpr rfl, name,
          Attribute.string_eq_ok.mpr rfl, o, loadOccurrence_eq_ok.mpr ⟨w, hmem, rfl⟩, ?_⟩
        refine bind_eq_ok.mpr ⟨t.text, lift_violation_eq_ok.mpr (Attribute.string_eq_ok.mpr rfl),
          bind_eq_ok.mpr ⟨t, hread, Content.addInline_eq_ok.mpr ⟨hnew, rfl⟩⟩⟩

/-- Of the children with names of some kind, the definitions come first and the content last. -/
theorem filter_children {e content : Element} {defs : List Element}
    (hchildren : e.children = defs ++ [content]) (hdefs : ∀ d ∈ defs, d.name = "Definitions")
    (f : String → Bool) :
    (e.children.filter fun c => f c.name) =
      (if f "Definitions" then defs else []) ++ if f content.name then [content] else [] := by
  have hsame : ∀ d ∈ defs, f d.name = f "Definitions" := fun d hd => by rw [hdefs d hd]
  rw [hchildren, List.filter_append, List.filter_congr hsame, List.filter_singleton,
    Bool.cond_eq_ite]
  cases f "Definitions" <;> simp

/-- Content is loaded from its lines, with or without definitions before it. -/
theorem loadContent_of_lines {owner : String} {e : Element} {defs : List Element}
    {as es : List Attribute} {c d : Content}
    (hchildren : e.children = defs ++ [⟨"UnorderedContent", (as ++ es).map Node.attribute⟩])
    (hdefs : ∀ d ∈ defs, d.name = "Definitions") (has : ∀ a ∈ as, a.name = "Attribute")
    (hes : ∀ a ∈ es, a.name = "Element")
    (helements : es.foldlM (loadElementEntry p owner) (.unordered [] []) = .ok d)
    (hattributes : as.foldlM (loadAttributeEntry p owner) d = .ok c) :
    loadContent p owner e = .ok c := by
  have hfind (name : String) : e.elements name = _ :=
    filter_children hchildren hdefs (Text.sameName · name)
  have hone : e.elements "UnorderedContent" =
      [⟨"UnorderedContent", (as ++ es).map Node.attribute⟩] := by
    rw [hfind]
    simp [sameName_grammarNames, grammarNames]
  have hlist : e.hasElement "ListContent" = false := by
    rw [Element.hasElement, hfind]
    simp [sameName_grammarNames, grammarNames]
  have hchoice : e.assureChoice ["UnorderedContent", "ListContent"] = .ok () := by
    rw [Element.assureChoice_eq_ok, filter_children hchildren hdefs (Element.hasName _)]
    simp [Element.hasName, sameName_grammarNames, grammarNames]
  have hlines (name : String) : Element.attributes
      ⟨"UnorderedContent", (as ++ es).map Node.attribute⟩ name =
        (if Text.sameName "Attribute" name then as else []) ++
          if Text.sameName "Element" name then es else [] := by
    rw [List.map_append, Element.attributes_append, Element.attributes_map_attribute _ has,
      Element.attributes_map_attribute _ hes]
  simp only [loadContent, bind_eq_ok, lift_violation_eq_ok, hlist, Bool.false_eq_true, if_false]
  refine ⟨(), hchoice, _, Element.one_eq_ok.mpr hone, (),
    Element.assureNoElements_eq_ok.mpr (Element.children_map_attribute _ _), (),
    Element.assureAttributeNames_eq_ok.mpr fun a ha => Element.hasName_of_mem ?_, d, ?_, ?_⟩
  · rw [Element.ownAttributes_map_attribute] at ha
    rcases List.mem_append.mp ha with ha | ha
    · simp [has a ha]
    · simp [hes a ha]
  · rw [hlines]
    simpa [sameName_grammarNames, grammarNames] using helements
  · rw [hlines]
    simpa [sameName_grammarNames, grammarNames] using hattributes

/-- Content is written, and any element with this content and no other has it loaded. -/
theorem loadContent_node {c : Content} (h : c.WellFormed p) (owner : String) :
    ∃ content : Element, c.node owner = .ok content.toNode ∧ content.name = "UnorderedContent" ∧
      content.toNode.Written ∧
      ∀ e defs, e.children = defs ++ [content] → (∀ d ∈ defs, d.name = "Definitions") →
        loadContent p owner e = .ok c := by
  obtain ⟨hna, hne, hwa, hwe⟩ := h
  rename_i attributes elements
  obtain ⟨as, has⟩ := exists_forall₂ fun a ha => loadAttributeEntry_node (hwa a ha)
  obtain ⟨es, hes⟩ := exists_forall₂ fun e he => loadElementEntry_node (hwe e he)
  refine ⟨⟨"UnorderedContent", (as ++ es).map Node.attribute⟩, ?_, rfl, ?_,
    fun e defs hchildren hdefs => ?_⟩
  · have hnodes₁ : attributes.mapM AttributeEntry.node = .ok (as.map Node.attribute) :=
      mapM_eq_ok.mpr (List.forall₂_map_right_iff.mpr (has.imp fun _ _ h => h.1))
    have hnodes₂ : elements.mapM ElementEntry.node = .ok (es.map Node.attribute) :=
      mapM_eq_ok.mpr (List.forall₂_map_right_iff.mpr (hes.imp fun _ _ h => h.1))
    simp only [Content.node, hnodes₁, hnodes₂, ok_bind, pure_eq_ok, List.map_append,
      Element.toNode]
  · refine .element (by simp [grammarNames]) fun n hn => ?_
    obtain ⟨a, ha, rfl⟩ := List.mem_map.mp hn
    rcases List.mem_append.mp ha with ha | ha
    · exact forall_of_forall₂ has (fun _ _ h => h.2.2.1) a ha
    · exact forall_of_forall₂ hes (fun _ _ h => h.2.2.1) a ha
  · refine loadContent_of_lines (d := .unordered [] elements) hchildren hdefs
      (forall_of_forall₂ has fun _ _ h => h.2.1) (forall_of_forall₂ hes fun _ _ h => h.2.1) ?_ ?_
    · refine foldlM_rebuild (g := fun done => Content.unordered [] done) hes ?_
      rintro done entry a ⟨-, -, -, hload⟩ hdone
      exact hload owner [] done (not_mem_of_prefix_nodup hdone hne)
    · refine foldlM_rebuild (g := fun done => Content.unordered done elements) has ?_
      rintro done entry a ⟨-, -, -, hload⟩ hdone
      exact hload owner done elements (not_mem_of_prefix_nodup hdone hna)

/-! ### Scopes -/

/-- The scope is written as the elements, and loading them fills the empty scope at the place. -/
structure ScopeWritten (p : Place) (s : Scope) (ns : List Element) : Prop where
  nodes : s.nodes = .ok (ns.map Element.toNode)
  written : ∀ n ∈ ns, n.toNode.Written
  names : ∀ n ∈ ns, n.name ∈ definitionNames
  load : ∀ tag more, Element.children ⟨tag, more⟩ = [] →
    ((loadLeaves (p.withScope {}) ⟨tag, ns.map Element.toNode ++ more⟩).result >>= fun q =>
      (loadElements q (ns.map Element.toNode ++ more)).result) = .ok (p.withScope s)

/-- Nodes that are no elements of a scope are passed over. -/
theorem loadElements_skip (q : Place) {ns : List Node} (more : List Node)
    (h : ∀ n ∈ ns, (loadElement q n).result = .ok q) :
    (loadElements q (ns ++ more)).result = (loadElements q more).result := by
  induction ns with
  | nil => rfl
  | cons n ns ih =>
      simp only [List.cons_append, loadElements, Traced.result_bind, h n (by simp), ok_bind]
      exact ih fun n hn => h n (by simp [hn])

/-- Elements load one part after the other. -/
theorem loadElements_append (q : Place) (ns ms : List Node) :
    (loadElements q (ns ++ ms)).result =
      (loadElements q ns).result >>= fun r => (loadElements r ms).result := by
  induction ns generalizing q with
  | nil => rfl
  | cons n ns ih =>
      simp only [List.cons_append, loadElements, Traced.result_bind, bind_assoc]
      exact congrArg _ (funext fun r => ih r)

theorem loadElements_of_no_children (q : Place) {tag : String} {ns : List Node}
    (h : Element.children ⟨tag, ns⟩ = []) : (loadElements q ns).result = .ok q := by
  rw [result_loadElements q tag, Element.elements, h]
  rfl

/-- A scope is written if its definitions are well formed and its elements are written. -/
theorem scopeWritten {s : Scope} {es : List Element}
    (hleaves : (p.withScope s.leaves).LeavesWellFormed)
    (hnodes : ElementDef.nodes s.elements = .ok (es.map Element.toNode))
    (hes : ∀ e ∈ es, e.toNode.Written ∧ e.name = "Element")
    (hload : (loadElements (p.withScope s.leaves) (es.map Element.toNode)).result =
      .ok (p.withScope s)) : ∃ ns, ScopeWritten p s ns := by
  obtain ⟨leaves, hleafNodes, hnames, hloadLeaves⟩ := loadLeaves_nodes hleaves
  rw [Place.scope_withScope] at hleafNodes hloadLeaves
  refine ⟨leaves ++ es, ?_, fun n hn => ?_, fun n hn => ?_, fun tag more hmore => ?_⟩
  · rw [show s.leaves.leafNodes = s.leafNodes from rfl] at hleafNodes
    simp only [Scope.nodes, hleafNodes, hnodes, ok_bind, pure_eq_ok, List.map_append]
  · rcases List.mem_append.mp hn with hn | hn
    · exact (hnames n hn).1
    · exact (hes n hn).1
  · have hsub : ["EnumType", "Struct", "Attribute"] ⊆ definitionNames := by decide
    rcases List.mem_append.mp hn with hn | hn
    · exact hsub (hnames n hn).2
    · rw [(hes n hn).2]
      decide
  · have hother : ∀ name ∈ ["EnumType", "Struct", "Attribute"],
        Text.sameName "Element" name = false ∧ Text.sameName name "Element" = false := by
      simp [sameName_grammarNames, grammarNames]
    have hnone : ∀ name ∈ ["EnumType", "Struct", "Attribute"],
        Element.elements ⟨tag, es.map Element.toNode ++ more⟩ name = [] := by
      intro name hname
      rw [Element.elements_append, Element.elements_map_toNode tag fun e he => (hes e he).2,
        (hother name hname).1, Element.elements, hmore]
      rfl
    have hskip : ∀ n ∈ leaves.map Element.toNode,
        (loadElement (p.withScope s.leaves) n).result = .ok (p.withScope s.leaves) := by
      intro n hn
      obtain ⟨e, he, rfl⟩ := List.mem_map.mp hn
      simp [Element.toNode, loadElement, (hother _ (hnames e he).2).2]
    have hleaf := hloadLeaves tag _ hnone
    rw [Place.withScope_withScope, Place.withScope_withScope] at hleaf
    rw [List.map_append, List.append_assoc, hleaf, ok_bind]
    change (loadElements (p.withScope s.leaves) _).result = _
    rw [loadElements_skip _ _ hskip, loadElements_append, hload, ok_bind,
      loadElements_of_no_children _ hmore]

/-! ### Elements -/

theorem isEmpty_eq_true {s : Scope} : s.isEmpty = true ↔ s = {} := by
  obtain ⟨vs, ss, as, es⟩ := s
  simp [Scope.isEmpty, and_assoc]

/-- A written scope loads as the scope. -/
theorem loadDefinitions_written {s : Scope} {ns : List Element} (h : ScopeWritten p s ns) :
    (loadDefinitions (p.withScope {}) (.element "Definitions" (ns.map Element.toNode))).result =
      .ok (p.withScope s) := by
  have hname : Text.sameName "Definitions" "Definitions" = true := by
    simp [sameName_grammarNames, grammarNames]
  have hload := h.load "Definitions" [] rfl
  rw [List.append_nil] at hload
  simp only [loadDefinitions, hname, Bool.not_true, Bool.false_eq_true, if_false,
    Traced.result_bind, Traced.result_lift_violation]
  refine bind_eq_ok.mpr ⟨(), lift_violation_eq_ok.mpr
    (Element.assureElementNames_eq_ok.mpr fun n hn => ?_), bind_eq_ok.mpr ⟨(),
    lift_violation_eq_ok.mpr (Element.assureNoAttributes_eq_ok.mpr ?_), hload⟩⟩
  · rw [Element.children_map_toNode] at hn
    exact Element.hasName_of_mem (h.names n hn)
  · exact Element.ownAttributes_map_toNode _ _

theorem loadInner_cons (q : Place) (n : Node) (ns : List Node) :
    (loadInner q (n :: ns)).result =
      (loadDefinitions q n).result >>= fun r => (loadInner r ns).result := by
  rw [loadInner, Traced.result_bind]

/-- The definitions of an element are left out if there are none. -/
theorem loadInner_written {s : Scope} {ns : List Element} {content : Element}
    (h : ScopeWritten p s ns) (hcontent : content.name = "UnorderedContent") :
    ∃ defs : List Element, (∀ d ∈ defs, d.name = "Definitions" ∧ d.toNode.Written) ∧
      defs.length ≤ 1 ∧
      (if s.isEmpty then [] else [Node.element "Definitions" (ns.map Element.toNode)]) =
        defs.map Element.toNode ∧
      ∀ name, (loadInner (p.withScope {})
        (textLine "Name" name :: (defs.map Element.toNode ++ [content.toNode]))).result =
          .ok (p.withScope s) := by
  have hlast (q : Place) : (loadInner q [content.toNode]).result = .ok q := by
    have hnone : Element.elements ⟨"Element", [content.toNode]⟩ "Definitions" = [] := by
      rw [Element.toNode, Element.elements_singleton, hcontent]
      simp [sameName_grammarNames, grammarNames]
    exact loadInner_of_not_mem q hnone
  by_cases hempty : s.isEmpty = true
  · refine ⟨[], nofun, by simp, by simp [hempty], fun name => ?_⟩
    rw [isEmpty_eq_true.mp hempty]
    exact hlast _
  · refine ⟨[⟨"Definitions", ns.map Element.toNode⟩], fun d hd => ?_, by simp,
      by simp [hempty]; rfl, fun name => ?_⟩
    · rw [List.mem_singleton.mp hd]
      refine ⟨rfl, .element (by simp [grammarNames]) fun n hn => ?_⟩
      obtain ⟨e, he, rfl⟩ := List.mem_map.mp hn
      exact h.written e he
    · have hline : (loadDefinitions (p.withScope {}) (textLine "Name" name)).result =
          .ok (p.withScope {}) := rfl
      rw [loadInner_cons, hline, ok_bind]
      change (loadInner _ (Node.element "Definitions" _ :: [content.toNode])).result = _
      rw [loadInner_cons, loadDefinitions_written h, ok_bind, hlast]

/-- The node of an element by its parts. -/
theorem node_eq (e : ElementDef) :
    e.node = (do
      let nodes ← e.scope.nodes
      let content ← match e.content with
        | none => pure []
        | some c => do pure [← c.node e.name]
      return .element "Element" (textLine "Name" e.name ::
        (if e.scope.isEmpty then [] else [Node.element "Definitions" nodes]) ++ content)) := by
  obtain ⟨name, vs, ss, as, es, content⟩ := e
  simp only [ElementDef.node, Scope.nodes, ElementDef.scope, bind_assoc, pure_bind]
  cases content <;> rfl

/-- The element that is written for an element: its name, its definitions and its content. -/
def elementOf (name : String) (defs : List Element) (content : Element) : Element :=
  ⟨"Element", textLine "Name" name :: (defs.map Element.toNode ++ [content.toNode])⟩

section

variable {defs : List Element} {content : Element}

theorem children_elementOf : (elementOf name defs content).children = defs ++ [content] := by
  rw [elementOf, ← List.singleton_append, Element.children_append, Element.children_append,
    Element.children_map_toNode]
  rfl

theorem ownAttributes_elementOf :
    (elementOf name defs content).ownAttributes = [⟨"Name", [some name], by simp⟩] := by
  rw [elementOf, ← List.singleton_append, Element.ownAttributes_append,
    Element.ownAttributes_append, Element.ownAttributes_map_toNode]
  rfl

/-- The node of an element can be written if its parts can. -/
theorem elementOf_written (hname : Text.Kept name) (hdefs : ∀ d ∈ defs, d.toNode.Written)
    (hcontent : content.toNode.Written) : (elementOf name defs content).toNode.Written := by
  refine .element (show "Element" ∈ grammarNames by decide) fun n hn => ?_
  rcases List.mem_cons.mp hn with rfl | hn
  · exact .line (by simp [grammarNames]) hname (List.forall_mem_nil _)
  · rcases List.mem_append.mp hn with hn | hn
    · obtain ⟨d, hd, rfl⟩ := List.mem_map.mp hn
      exact hdefs d hd
    · rw [List.mem_singleton.mp hn]
      exact hcontent

/-- An element is loaded from its parts. -/
theorem loadElement_of_parts {s : Scope} {c : Content} (hnew : name ∉ p.scope.names .element)
    (hdefs : ∀ d ∈ defs, d.name = "Definitions") (hone : defs.length ≤ 1)
    (hname : content.name = "UnorderedContent")
    (hinner : (loadInner (p.inside name {})
      (elementOf name defs content).nodes).result = .ok (p.inside name s))
    (hcontent : loadContent (p.inside name s) name (elementOf name defs content) = .ok c) :
    (loadElement p (elementOf name defs content).toNode).result =
      .ok (p.addElements [⟨name, s.valueTypes, s.structs, s.attributes, s.elements, some c⟩]) := by
  have htag : Text.sameName (elementOf name defs content).name "Element" = true := by
    simp [elementOf, sameName_grammarNames, grammarNames]
  simp only [Element.toNode, loadElement, htag, Bool.not_true, Bool.false_eq_true, if_false, report,
    Traced.result_bind, Traced.result_lift, Traced.result_lift_violation, Traced.result_report,
    Traced.result_pure, bind_eq_ok, lift_violation_eq_ok]
  refine ⟨name, nameOf_line ?_, _, Scope.add_eq_ok.mpr ⟨hnew, rfl⟩, (), trivial, (),
    Element.assureElementNames_eq_ok.mpr fun d hd => Element.hasName_of_mem ?_, (),
    Element.assureAttributeNames_eq_ok.mpr fun a ha => Element.hasName_of_mem ?_,
    defs.head?, Element.atMostOne_eq_ok.mpr ?_, _, hinner, c, hcontent, ?_⟩
  · rw [Element.attributes, Element.ownAttributes_append, Element.ownAttributes_map_toNode]
    rfl
  · rw [children_elementOf] at hd
    rcases List.mem_append.mp hd with hd | hd
    · simp [hdefs d hd]
    · simp [List.mem_singleton.mp hd, hname]
  · rw [ownAttributes_elementOf] at ha
    simp [List.mem_singleton.mp ha]
  · rw [Element.elements, filter_children children_elementOf hdefs
      (Text.sameName · "Definitions"), hname]
    rcases defs with _ | ⟨d, _ | ⟨d', ds⟩⟩
    · simp [sameName_grammarNames, grammarNames]
    · simp [sameName_grammarNames, grammarNames]
    · simp at hone
  · exact congrArg Except.ok (Place.change_new_element hnew rfl)

end

/-- An element is written, and loading it adds it to the scope at the place. -/
theorem loadElement_written {e : ElementDef} {ns : List Element} {c : Content}
    (hkept : Text.Kept e.name) (hnew : e.name ∉ p.scope.names .element)
    (hscope : ScopeWritten (p.inside e.name {}) e.scope ns) (hcontent : e.content = some c)
    (hc : c.WellFormed (p.inside e.name e.scope)) :
    ∃ n : Element, e.node = .ok n.toNode ∧ n.name = "Element" ∧ n.toNode.Written ∧
      (loadElement p n.toNode).result = .ok (p.addElements [e]) := by
  obtain ⟨content, hnode, hname, hwritten, hload⟩ := loadContent_node hc e.name
  obtain ⟨defs, hdefs, hone, hnodes, hinner⟩ := loadInner_written hscope hname
  refine ⟨elementOf e.name defs content, ?_, rfl, ?_, ?_⟩
  · simp only [node_eq, hscope.nodes, hcontent, hnode, hnodes, ok_bind, pure_eq_ok, Element.toNode,
      elementOf, List.cons_append]
  · exact elementOf_written hkept (fun d hd => (hdefs d hd).2) hwritten
  · have hdefNames := fun d hd => (hdefs d hd).1
    have hparts := loadElement_of_parts hnew hdefNames hone hname (hinner e.name)
      (hload _ defs children_elementOf hdefNames)
    obtain ⟨name, vs, ss, as, es, _⟩ := e
    obtain rfl := hcontent
    exact hparts

/-- Well formed elements are written, and loading them adds them to the scope at the place. -/
theorem loadElements_written {es : List ElementDef} (h : p.ElementsWellFormed es) :
    ∃ ns : List Element, ElementDef.nodes es = .ok (ns.map Element.toNode) ∧
      (∀ n ∈ ns, n.toNode.Written ∧ n.name = "Element") ∧
      (loadElements p (ns.map Element.toNode)).result = .ok (p.addElements es) := by
  induction h with
  | nil => exact ⟨[], rfl, nofun, by rw [Place.addElements_nil]; rfl⟩
  | cons kept new leaves elements content_eq content rest ihElements ihRest =>
      rename_i p e es c
      obtain ⟨inner, hinnerNodes, hinnerNames, hinnerLoad⟩ := ihElements
      obtain ⟨ns, hnodes, hnames, hload⟩ := ihRest
      obtain ⟨defs, hscope⟩ := scopeWritten (p := p.inside e.name {}) (s := e.scope) leaves
        hinnerNodes hinnerNames hinnerLoad
      obtain ⟨n, hnode, hname, hwritten, hone⟩ :=
        loadElement_written kept new hscope content_eq content
      refine ⟨n :: ns, ?_, fun m hm => ?_, ?_⟩
      · simp only [ElementDef.nodes, hnode, hnodes, ok_bind, pure_eq_ok, List.map_cons]
      · rcases List.mem_cons.mp hm with rfl | hm
        · exact ⟨hwritten, hname⟩
        · exact hnames m hm
      · simp only [List.map_cons, loadElements, Traced.result_bind, hone, ok_bind, hload,
          Place.addElements_addElements, List.singleton_append]

/-! ### Schemas -/

/-- The root is found again, whether it is written or not. -/
theorem loadRoot_written {s : Schema} {name : String} (ns : List Element)
    (hroot : s.root = some name) (hname : name ∈ s.definitions.names .element)
    (hkept : Text.Kept name) :
    ∃ lines : List Attribute,
      s.rootLines = .ok (lines.map Node.attribute) ∧
      (∀ a ∈ lines, a.name = "RootElement" ∧ (Node.attribute a).Written) ∧
      loadRoot ⟨"Schema", ns.map Element.toNode ++ lines.map Node.attribute⟩
        { definitions := s.definitions } = .ok s := by
  have hattributes (lines : List Attribute) (hlines : ∀ a ∈ lines, a.name = "RootElement") :
      Element.attributes ⟨"Schema", ns.map Element.toNode ++ lines.map Node.attribute⟩
        "RootElement" = lines := by
    rw [Element.attributes_append, Element.attributes_map_attribute _ hlines, Element.attributes,
      Element.ownAttributes_map_toNode]
    simp [sameName_grammarNames, grammarNames]
  obtain ⟨definitions, root⟩ := s
  obtain rfl := hroot
  rcases hes : definitions.elements with _ | ⟨e, _ | ⟨f, es⟩⟩
  · simp [Scope.names, hes] at hname
  · obtain rfl : name = e.name := by simpa [Scope.names, hes] using hname
    refine ⟨[], ?_, List.forall_mem_nil _, bind_eq_ok.mpr ⟨none, ?_, ?_⟩⟩
    · rw [Schema.rootLines, hes]
      rfl
    · rw [lift_violation_eq_ok, Element.optionalAttribute, Element.atMostOne_eq_ok]
      exact hattributes [] (List.forall_mem_nil _)
    · exact Schema.setDefaultRoot_eq_ok.mpr ⟨e, hes, rfl⟩
  · refine ⟨[⟨"RootElement", [some name], by simp⟩], ?_, fun a ha => ?_,
      bind_eq_ok.mpr ⟨some ⟨"RootElement", [some name], by simp⟩, ?_, ?_⟩⟩
    · rw [Schema.rootLines, hes]
      rfl
    · rw [List.mem_singleton.mp ha]
      exact ⟨rfl, .line (m := []) (by simp [grammarNames]) hkept (List.forall_mem_nil _)⟩
    · rw [lift_violation_eq_ok, Element.optionalAttribute, Element.atMostOne_eq_ok]
      exact hattributes _ (by simp)
    · refine bind_eq_ok.mpr ⟨name, lift_violation_eq_ok.mpr
        (Attribute.onlyString_eq_ok.mpr rfl), ?_⟩
      rw [if_pos (by simpa using hname)]
      exact Schema.setRoot_eq_ok.mpr ⟨hname, rfl⟩

end Loader

theorem Place.ElementsWellFormed.kept_name {p : Place} {es : List ElementDef}
    (h : p.ElementsWellFormed es) : ∀ e ∈ es, Text.Kept e.name := by
  induction h with
  | nil => nofun
  | cons kept _ _ _ _ _ _ _ ih =>
      intro d hd
      rcases List.mem_cons.mp hd with rfl | hd
      · exact kept
      · exact ih d hd

namespace Schema

variable {s : Schema}

/-- A well formed schema is written as a document that is loaded as the same schema. -/
theorem WellFormed.loadSchema_document (h : s.WellFormed) :
    ∃ d, s.document = .ok d ∧ d.root.toNode.Written ∧ d.endKeyword = some "End" ∧
      (Loader.loadSchema d.root).result = .ok s := by
  obtain ⟨name, hroot, hname⟩ := h.root
  obtain ⟨e, he, rfl⟩ := List.mem_map.mp hname
  obtain ⟨es, hnodes, hnames, hload⟩ := Loader.loadElements_written h.elements
  obtain ⟨ns, hscope⟩ := Loader.scopeWritten (p := .top {}) (s := s.definitions) h.leaves hnodes
    hnames hload
  obtain ⟨lines, hlines, hlineNames, hloadRoot⟩ :=
    Loader.loadRoot_written ns hroot hname (h.elements.kept_name e he)
  refine ⟨⟨⟨"Schema", ns.map Element.toNode ++ lines.map Node.attribute⟩, some "End"⟩, ?_, ?_, rfl,
    ?_⟩
  · simp only [document, hscope.nodes, hlines, ok_bind, pure_eq_ok]
  · refine .element (by simp [grammarNames]) fun n hn => ?_
    rcases List.mem_append.mp hn with hn | hn
    · obtain ⟨m, hm, rfl⟩ := List.mem_map.mp hn
      exact hscope.written m hm
    · obtain ⟨a, ha, rfl⟩ := List.mem_map.mp hn
      exact (hlineNames a ha).2
  · have hrootName : s.rootName = .ok e.name := by
      rw [rootName, hroot]
    obtain ⟨q, hleaves, helements⟩ := bind_eq_ok.mp <| hscope.load "Schema"
      (lines.map Node.attribute) (Element.children_map_attribute _ _)
    simp only [Loader.loadSchema, Loader.report, Traced.result_bind, Traced.result_lift,
      Traced.result_lift_violation, Traced.result_report, Traced.result_pure, bind_eq_ok,
      lift_violation_eq_ok]
    refine ⟨(), Element.assureName_eq_ok.mpr ?_, (), Element.assureElementNames_eq_ok.mpr ?_, (),
      Element.assureAttributeNames_eq_ok.mpr ?_, q, hleaves, _, helements, s, hloadRoot, e.name,
      hrootName, (), trivial, rfl⟩
    · simp [sameName_grammarNames, grammarNames]
    · intro c hc
      rw [Element.children_append, Element.children_map_toNode, Element.children_map_attribute,
        List.append_nil] at hc
      exact Element.hasName_of_mem (hscope.names c hc)
    · intro a ha
      rw [Element.ownAttributes_append, Element.ownAttributes_map_toNode,
        Element.ownAttributes_map_attribute, List.nil_append] at ha
      exact Element.hasName_of_mem (by simp [(hlineNames a ha).1])

/-- The document of a well formed schema is written as a text that holds the schema. -/
theorem WellFormed.parse_render (h : s.WellFormed) :
    ∃ text, s.render = .ok text ∧ (parse text).result = .ok s := by
  obtain ⟨d, hd, hwritten, hend, hload⟩ := h.loadSchema_document
  have hapart : ∀ x ∈ grammarNames, Document.sameCell (some x) (some "End") = false := by
    decide +kernel
  have hends : d.EndsApart := by
    intro x hx
    rw [hend]
    exact hapart x (hwritten.names x hx)
  have hkept : d.LinesKept := by
    intro x hx
    rw [Document.texts, hend] at hx
    rcases List.mem_append.mp hx with hx | hx
    · exact hwritten.texts x hx
    · rw [List.mem_singleton.mp hx]
      decide
  have hparse : Document.parse d.render = .ok d :=
    Document.parse_render d (List.all_eq_true.mp (by decide)) hends hkept
  refine ⟨d.render, bind_eq_ok.mpr ⟨d, hd, rfl⟩, ?_⟩
  rw [parse, Loader.wrap_eq_ok, Traced.result_bind, Traced.result_lift, hparse]
  exact hload

/-- A schema that was read from a text is written as a text from which it is read again, with the
same definitions in the same order, every reference to the same definition of the same scope and the
same root; it is then written as the same text. -/
theorem parse_render_of_parse {text : String} (h : (parse text).result = .ok s) :
    ∃ written t, s.render = .ok written ∧ (parse written).result = .ok t ∧ t = s ∧
      t.render = .ok written := by
  obtain ⟨written, hrender, hparse⟩ := (wellFormed_of_parse h).parse_render
  exact ⟨written, s, hrender, hparse, rfl, hrender⟩

/-- The tree schema is written and read again. -/
theorem parse_render_of_parse_tree :
    (parse treeText).result = .ok treeSchema ∧ ∃ written t, treeSchema.render = .ok written ∧
      (parse written).result = .ok t ∧ t = treeSchema ∧ t.render = .ok written :=
  ⟨parse_treeText, parse_render_of_parse parse_treeText⟩

end Schema

end SmlSchema
