import SmlSchema.Proofs.Code.Fields

/-! # What the generator makes

The generator goes over the definitions of a schema three times: over the value types, the structs
and the elements. Each step gives one more definition a name and makes its type, and it finds the
names of all definitions that it refers to. The only failures left are names that cannot be made and
structs without values that would have to be read.
-/

namespace SmlSchema

theorem Schema.rootName_eq_ok {s : Schema} {name : String} :
    s.rootName = .ok name ↔ s.root = some name := by
  unfold rootName
  cases s.root <;> simp

namespace Code

/-! ## Types of definitions -/

/-- The type was made for the definition that has the name. References in it were written with names
that are kept. -/
inductive Declares (s : Schema) (names : TypeNames) :
    NameBinding Entity Made → DeclaredType → Prop where
  | enumeration {scope : Path} {name typeName : String} {labels members : List String}
      (mem : (scope, .enum name labels) ∈ s.allValueTypes)
      (length : members.length = labels.length) (nodup : members.Nodup) :
      Declares s names ⟨.valueType scope name, typeName, .enumeration (members.headD "")⟩
        (enumType typeName labels members)
  | struct {scope : Path} {d : Struct} {typeName : String} {known : TypeNames}
      {fields : MemberNames} {cs : List FieldCode} (mem : (scope, d) ∈ s.allStructs)
      (keeps : known.Keeps names)
      (gather : gather (structField known) (.start false) d.values.zipIdx = .ok (fields, cs))
      (nodup : (cs.map (·.field.name)).Nodup) :
      Declares s names ⟨.struct scope d.name, typeName, .struct d⟩ (structType typeName cs)
  | element {scope : Path} {e : ElementDef} {typeName : String} {known : TypeNames} {isRoot : Bool}
      {fields last : MemberNames} {cs ds : List FieldCode} (mem : (scope, e) ∈ s.allElements)
      (keeps : known.Keeps names)
      (attributes : gather (attributeField s known) (.start false) e.attributeEntries =
        .ok (fields, cs))
      (elements : gather (elementField known) fields e.elementEntries = .ok (last, ds))
      (nodup : ((cs ++ ds).map (·.field.name)).Nodup)
      (root : isRoot = true ↔ scope = [] ∧ s.root = some e.name) :
      Declares s names ⟨.element scope e.name, typeName, .element⟩
        (recordType typeName e.name isRoot e.attributeEntries e.elementEntries (cs ++ ds))

/-- What is declared under some names is declared under all names that keep these. -/
theorem Declares.mono {s : Schema} {names later : TypeNames} {b : NameBinding Entity Made}
    {t : DeclaredType} (h : Declares s names b t) (hkeeps : names.Keeps later) :
    Declares s later b t := by
  cases h with
  | enumeration mem length nodup => exact .enumeration mem length nodup
  | struct mem keeps gather nodup => exact .struct mem (keeps.trans hkeeps) gather nodup
  | element mem keeps attributes elements nodup root =>
      exact .element mem (keeps.trans hkeeps) attributes elements nodup root

/-- The definitions `es` have got names after those that were done, and a type each. -/
structure Extends (s : Schema) (done : List Entity) (names : TypeNames) (es : List Entity)
    (g : Generated) : Prop where
  register : Register s (done ++ es) g.1
  types : ∃ bs, g.1 = names.extend bs ∧ bs.map (·.entity) = es ∧
    List.Forall₂ (Declares s g.1) bs g.2

namespace Extends

variable {s : Schema} {done es fs : List Entity} {names mid : TypeNames}

theorem nil (h : Register s done names) : Extends s done names [] (names, []) :=
  ⟨by rwa [List.append_nil], [], (Names.extend_nil names).symm, rfl, .nil⟩

/-- What extends an extension extends the start. -/
theorem append {types more : List DeclaredType} {last : TypeNames}
    (h : Extends s done names es (mid, types))
    (h' : Extends s (done ++ es) mid fs (last, more)) :
    Extends s done names (es ++ fs) (last, types ++ more) := by
  obtain ⟨-, bs, hmid, hbs, htypes⟩ := h
  obtain ⟨hregister, cs, hlast, hcs, hmore⟩ := h'
  dsimp only at hmid htypes hlast hmore hregister
  refine ⟨by rwa [← List.append_assoc], bs ++ cs, ?_, ?_, ?_⟩
  · rw [hlast, hmid, Names.extend_extend]
  · rw [List.map_append, hbs, hcs]
  · refine List.rel_append (htypes.imp fun b t ht => ht.mono ?_) hmore
    rw [hlast]
    exact Names.keeps_extend _ _

/-- One definition has got a name and its type. -/
theorem singleton {e : Entity} {name : String} {m : Made} {t : DeclaredType}
    (hregister : Register s (done ++ [e]) (names.extend [⟨e, name, m⟩]))
    (ht : Declares s (names.extend [⟨e, name, m⟩]) ⟨e, name, m⟩ t) :
    Extends s done names [e] (names.extend [⟨e, name, m⟩], [t]) :=
  ⟨hregister, _, rfl, rfl, .cons ht .nil⟩

end Extends

section

variable {s : Schema} {done : List Entity} {names : TypeNames} {scope : Path}

/-- One more value type is declared, or there is an obstacle. -/
theorem generateEnum_ends (h : Register s done names) {v : ValueType}
    (hv : (scope, v) ∈ s.allValueTypes) (hwell : v.WellFormed)
    (hnew : Entity.ofValueType (scope, v) ∉ done) (hcount : done.length < s.entities.length) :
    Ends s.Obstacle (Extends s done names [.ofValueType (scope, v)])
      (generateEnum names scope v).result := by
  cases hwell with
  | @enum name labels ne_nil nodup kept_name kept_labels =>
      simp only [generateEnum, report, Traced.result_bind, Traced.result_lift_name,
        Traced.result_report, ok_bind, lift_declareEnum, Traced.result_pure]
      refine (h.generate hcount (ne_empty_of_append (by decide))).bind fun typeName _ hfree => ?_
      have hmembers : Ends s.Obstacle
          (fun members => members.length = labels.length ∧ members.Nodup)
          (liftM ((MemberNames.start true).reserveAll labels).2 : Except Error (List String)) := by
        have hreserve := Names.reserveAll_ends (MemberNames.start true) labels
        refine (hreserve.mono (fun _ hf => hf) fun _ _ hm => ⟨hm.1, hm.2.1⟩).mapError fun f hf =>
          .ofBlocks hf ?_ ?_
        · exact fun hmem => .inl ⟨_, hv, hmem⟩
        · intro hlarge
          rw [MemberNames.start, List.length_nil, Nat.zero_add] at hlarge
          exact .inr (.inl ⟨_, hv, hlarge⟩)
      refine hmembers.bind fun members _ hm => ?_
      obtain ⟨hadd, hregister⟩ := h.add hnew hfree (.enumeration scope name (members.headD ""))
      refine .of_eq_ok (bind_eq_ok.mpr ⟨_, lift_name_eq_ok.mpr hadd, rfl⟩) ?_
      exact .singleton hregister (.enumeration hv hm.1 hm.2)

/-- The values of a struct become fields of different names. -/
theorem structFields_ends (h : Register s done names)
    (hdone : s.allValueTypes.map .ofValueType ⊆ done) (hs : s.WellFormed) {d : Struct}
    (hd : (scope, d) ∈ s.allStructs) :
    Ends s.Obstacle (fun r => (r.2.map (·.field.name)).Nodup)
      (gather (structField names) (.start false) d.values.zipIdx) := by
  have hbases : ∀ v ∈ d.values.zipIdx, v.1.base.DefinedIn s := fun v hv =>
    hs.structValue hd (List.fst_mem_of_mem_zipIdx hv)
  have hgather := gather_ends (fun v hv => structField_ends h hdone (hbases v hv)) (.start false)
  refine hgather.mono (fun e he => he.obstacle ?_ ?_ nofun) fun r _ hr => ?_
  · intro hmem
    obtain ⟨v, hv, hname⟩ := List.mem_map.mp hmem
    exact .inr (.inl ⟨_, hd, v.1, List.fst_mem_of_mem_zipIdx hv, hname⟩)
  · intro hlarge
    rw [MemberNames.start, List.length_nil, Nat.zero_add, List.length_zipIdx] at hlarge
    exact .inr (.inr (.inl ⟨_, hd, hlarge⟩))
  · have hnodup := hr.2 .nil
    rwa [hr.1] at hnodup

/-- One more struct is declared, or there is an obstacle. -/
theorem generateStruct_ends (h : Register s done names)
    (hdone : s.allValueTypes.map .ofValueType ⊆ done) (hs : s.WellFormed) {d : Struct}
    (hd : (scope, d) ∈ s.allStructs) (hnew : Entity.ofStruct (scope, d) ∉ done)
    (hcount : done.length < s.entities.length) :
    Ends s.Obstacle (Extends s done names [.ofStruct (scope, d)])
      (generateStruct names scope d).result := by
  simp only [generateStruct, report, Traced.result_bind, Traced.result_lift_name,
    Traced.result_lift, Traced.result_report, ok_bind, lift_declareStruct, Traced.result_pure]
  refine (h.generate hcount (ne_empty_of_append (by decide))).bind fun typeName _ hfree => ?_
  obtain ⟨hadd, hregister⟩ := h.add (e := .struct scope d.name) hnew hfree (.struct hd)
  rw [lift_name_eq_ok.mpr hadd, ok_bind]
  have hfields := structFields_ends hregister (List.subset_append_of_subset_left _ hdone) hs hd
  refine hfields.bind fun r hr hnodup => ?_
  exact .singleton hregister (.struct hd (.refl _) hr hnodup)

/-- Definitions that do not hold each other are done one after the other, once those they can refer
to are done. -/
theorem generateAll_ends {make : TypeNames → Path → α → Traced Error Generated}
    (entity : Path × α → Entity) (before : List Entity) {xs : List (Path × α)}
    (hmake : ∀ x ∈ xs, ∀ {done : List Entity} {names : TypeNames}, Register s done names →
      before ⊆ done → entity x ∉ done → done.length < s.entities.length →
        Ends s.Obstacle (Extends s done names [entity x]) (make names x.1 x.2).result)
    (h : Register s done names) (hdone : before ⊆ done) (hnew : (done ++ xs.map entity).Nodup)
    (hcount : done.length + xs.length ≤ s.entities.length) :
    Ends s.Obstacle (Extends s done names (xs.map entity)) (generateAll make names xs).result := by
  induction xs generalizing done names with
  | nil => exact .nil h
  | cons x xs ih =>
      rw [List.map_cons, ← List.singleton_append, ← List.append_assoc] at hnew
      rw [List.length_cons] at hcount
      have hx : entity x ∉ done := by
        intro hmem
        have hdisjoint := (List.nodup_append.mp (List.nodup_append.mp hnew).1).2.2
        exact hdisjoint _ hmem _ List.mem_cons_self rfl
      simp only [generateAll, Traced.result_bind, Traced.result_pure]
      refine (hmake x List.mem_cons_self h hdone hx (by omega)).bind ?_
      rintro ⟨mid, types⟩ - hfirst
      refine (ih (fun y hy => hmake y (List.mem_cons_of_mem _ hy)) hfirst.register
        (List.subset_append_of_subset_left _ hdone) hnew ?_).bind ?_
      · rw [List.length_append, List.length_singleton]
        omega
      · rintro ⟨last, more⟩ - hrest
        exact hfirst.append hrest

end

end Code

/-! ## Elements -/

/-- The elements that can be named at the place are done. -/
def Place.ElementsDone (p : Place) (done : List Entity) : Prop :=
  ∀ q ∈ p.chain, ∀ name ∈ q.scope.names .element, Entity.element q.path name ∈ done

namespace Place.ElementsDone

variable {p : Place} {done more : List Entity}

theorem mono (h : p.ElementsDone done) (hsub : done ⊆ more) : p.ElementsDone more :=
  fun q hq name hname => hsub (h q hq name hname)

/-- The place stays done when elements that are done are added to its scope. -/
theorem addElements (h : p.ElementsDone done) {es : List ElementDef}
    (hes : ∀ e ∈ es, Entity.element p.path e.name ∈ done) :
    (p.addElements es).ElementsDone done := by
  intro q hq name hname
  rcases mem_chain_withScope hq with rfl | hq
  · rw [path_withScope]
    rw [scope_withScope, Scope.names, List.map_append, List.mem_append] at hname
    rcases hname with hname | hname
    · exact h p p.self_mem_chain name hname
    · obtain ⟨e, he, rfl⟩ := List.mem_map.mp hname
      exact hes e he
  · exact h q hq name hname

/-- The scope inside an element that is done is done but for its own elements. -/
theorem inside (h : p.ElementsDone done) {name : String}
    (hname : Entity.element p.path name ∈ done) (s : Scope) :
    (p.inside name s.leaves).ElementsDone done := by
  intro q hq other hother
  rcases List.mem_cons.mp hq with rfl | hq
  · cases hother
  · refine h.addElements (fun e he => ?_) q hq other hother
    rw [List.mem_singleton.mp he]
    exact hname

/-- The definition of an entry of an element is done before the entry. -/
theorem entry (h : p.ElementsDone done) {x : ElementEntry} (hx : x.WellFormed p) :
    Entity.element x.scope x.name ∈ done := by
  cases hx with
  | @mk q e name o kept word found =>
      obtain ⟨hmem, hname⟩ := mem_of_find?_name (nearest?_eq_some found)
      exact h q (mem_chain_of_nearest? found) name (List.mem_map.mpr ⟨e, hmem, hname⟩)

end Place.ElementsDone

namespace Code

variable {s : Schema} {done : List Entity} {names : TypeNames}

/-- All attributes of an element get their fields, or there is an obstacle. -/
theorem attributeFields_ends (h : Register s done names)
    (hvalues : s.allValueTypes.map .ofValueType ⊆ done)
    (hstructs : s.allStructs.map .ofStruct ⊆ done) {x : Path × ElementDef} (hx : x ∈ s.allElements)
    {q : Place} (hq : q.Lies s) (hwell : ∀ a ∈ x.2.attributeEntries, a.WellFormed q) :
    Ends s.Obstacle
      (fun r => r.1.used = r.2.map (·.field.name) ∧ r.1.used.Nodup ∧
        r.2.length = x.2.attributeEntries.length)
      (gather (attributeField s names) (.start false) x.2.attributeEntries) := by
  have hfield : ∀ a ∈ x.2.attributeEntries, ∀ fields : MemberNames,
      Ends (Refused [fieldBase a.occurrence a.name] (fields.used.length + 1) s.Obstacle)
        (TakesName fields) (attributeField s names fields a) := by
    intro a ha fields
    obtain ⟨t, ht, hbase⟩ := (hwell a ha).type? hq
    refine (attributeField_ends h hvalues hstructs (hwell a ha).hasWord ht hbase fields).mono
      (fun e he => ?_) fun _ _ hr => hr
    cases he with
    | name hf => exact .name hf
    | other he =>
        cases he with
        | @emptyStruct scope d base mem values =>
            refine .other (.emptyStruct _ ⟨x, hx, a, ha, _, mem, ?_, values, rfl⟩)
            rw [ht, Option.map_some, base]
  refine (gather_ends hfield (.start false)).mono (fun e he => he.obstacle ?_ ?_ fun _ he => he)
    fun r hr hfields => ?_
  · intro hmem
    obtain ⟨a, ha, hempty⟩ := List.mem_map.mp hmem
    exact .inr (.inr ⟨x, hx, .inl ⟨a, ha, fieldBase_eq_empty hempty⟩⟩)
  · intro hlarge
    rw [MemberNames.start, List.length_nil] at hlarge
    exact .inr (.inr (.inr ⟨x, hx, by omega⟩))
  · exact ⟨hfields.1, hfields.2 .nil, (gather_eq_ok hr).length_eq.symm⟩

/-- All child elements of an element get their fields, or there is an obstacle. -/
theorem elementFields_ends (h : Register s done names) {x : Path × ElementDef}
    (hx : x ∈ s.allElements) {q : Place} (hdone : q.ElementsDone done)
    (hwell : ∀ y ∈ x.2.elementEntries, y.WellFormed q) {fields : MemberNames}
    (hfields : fields.used.Nodup) (hcount : fields.used.length = x.2.attributeEntries.length) :
    Ends s.Obstacle
      (fun r => r.1.used = fields.used ++ r.2.map (·.field.name) ∧ r.1.used.Nodup)
      (gather (elementField names) fields x.2.elementEntries) := by
  have hfield : ∀ y ∈ x.2.elementEntries, ∀ fields : MemberNames,
      Ends (Refused [fieldBase y.occurrence y.name] (fields.used.length + 1) fun _ => False)
        (TakesName fields) (elementField names fields y) := fun y hy fields =>
    elementField_ends h (hwell y hy).hasWord (hdone.entry (hwell y hy)) fields
  refine (gather_ends hfield fields).mono (fun e he => he.obstacle ?_ ?_ nofun) fun r _ hr => ?_
  · intro hmem
    obtain ⟨y, hy, hempty⟩ := List.mem_map.mp hmem
    exact .inr (.inr ⟨x, hx, .inr ⟨y, hy, fieldBase_eq_empty hempty⟩⟩)
  · intro hlarge
    rw [hcount] at hlarge
    exact .inr (.inr (.inr ⟨x, hx, hlarge⟩))
  · exact ⟨hr.1, hr.2 hfields⟩

/-- The type of an element is made once the elements that can be named in it are done. -/
theorem elementType_ends (h : Register s done names)
    (hvalues : s.allValueTypes.map .ofValueType ⊆ done)
    (hstructs : s.allStructs.map .ofStruct ⊆ done) {scope : Path} {e : ElementDef}
    (he : (scope, e) ∈ s.allElements) {q : Place} (hq : q.Lies s) (hdone : q.ElementsDone done)
    {c : Content} (hcontent : e.content = some c) (hc : c.WellFormed q) (typeName : String)
    {isRoot : Bool} (hroot : isRoot = true ↔ scope = [] ∧ s.root = some e.name) :
    Ends s.Obstacle (Declares s names ⟨.element scope e.name, typeName, .element⟩)
      (elementType s names typeName e.name isRoot e.content) := by
  cases hc with
  | @unordered attributes elements _ _ hattributes helements =>
      have ha : e.attributeEntries = attributes := by rw [ElementDef.attributeEntries, hcontent]
      have hx : e.elementEntries = elements := by rw [ElementDef.elementEntries, hcontent]
      have hcs := attributeFields_ends h hvalues hstructs he hq (by rwa [ha])
      simp only [elementType, hcontent, pure_bind, lift_declareRecord, ← ha, ← hx]
      refine hcs.bind ?_
      rintro ⟨fields, cs⟩ hgather ⟨hused, hnodup, hlength⟩
      dsimp only at hused hnodup hlength
      have hds := elementFields_ends h he hdone (by rwa [hx]) hnodup
        (by rw [hused, List.length_map, hlength])
      refine hds.bind ?_
      rintro ⟨last, ds⟩ hgather' ⟨hlast, hnodup'⟩
      refine .element he (.refl _) hgather hgather' ?_ hroot
      dsimp only at hlast hnodup'
      rwa [List.map_append, ← hused, ← hlast]

/-- What an element and its inner elements give, without the reports. -/
theorem result_generateElement (s : Schema) (outer : Path) (names : TypeNames) (e : ElementDef) :
    (generateElement s outer names e).result = (do
      let root ← s.rootName
      let isRoot := outer.isEmpty && e.name == root
      let typeName ← names.generate (e.name ++ if isRoot then "Document" else "Element")
      let names ← names.add (.element outer e.name) typeName .element
      let g ← (generateElements s (e.name :: outer) names e.elements).result
      let declared ← elementType s g.1 typeName e.name isRoot e.content
      return (g.1, declared :: g.2)) := by
  obtain ⟨name, valueTypes, structs, attributes, elements, content⟩ := e
  simp only [generateElement, report, Traced.result_bind, Traced.result_lift,
    Traced.result_lift_name, Traced.result_report, Traced.result_pure, ok_bind, pure_eq_ok]

/-- An element is done before those of its own scope, and its type is made after theirs. -/
theorem Extends.element {e : Entity} {es : List Entity} {name : String} {g : Generated}
    {t : DeclaredType} (h : Extends s (done ++ [e]) (names.extend [⟨e, name, .element⟩]) es g)
    (ht : Declares s g.1 ⟨e, name, .element⟩ t) :
    Extends s done names (e :: es) (g.1, t :: g.2) := by
  obtain ⟨hregister, bs, hnames, hbs, htypes⟩ := h
  refine ⟨?_, ⟨e, name, .element⟩ :: bs, ?_, ?_, .cons ht htypes⟩
  · rwa [List.append_assoc] at hregister
  · rw [hnames, Names.extend_extend]
    rfl
  · rw [List.map_cons, hbs]

/-- The elements that can be named in an element are done after those of its own scope. -/
theorem elementsDone_inside {p : Place} {e : ElementDef} (h : p.ElementsDone done) :
    (p.inside e.name e.scope).ElementsDone (done ++ [Entity.ofElement (p.path, e)] ++
      (ElementDef.elementsOfAll (e.name :: p.path) e.elements).map Entity.ofElement) := by
  have hself : (p.inside e.name e.scope.leaves).ElementsDone
      (done ++ [Entity.ofElement (p.path, e)]) :=
    (h.mono (List.subset_append_left _ _)).inside
      (List.mem_append_right _ List.mem_cons_self) e.scope
  refine (hself.mono (List.subset_append_left _ _)).addElements fun f hf => ?_
  rw [Place.path_inside]
  exact List.mem_append_right _ (List.mem_map.mpr ⟨_, ElementDef.mem_elementsOfAll hf, rfl⟩)

/-- One element is done, given that those of its own scope are. -/
theorem generateElement_ends {p : Place} {e : ElementDef} {c : Content}
    (hroot : ∃ name, s.rootName = .ok name) (h : Register s done names)
    (hvalues : s.allValueTypes.map Entity.ofValueType ⊆ done)
    (hstructs : s.allStructs.map Entity.ofStruct ⊆ done) (hdone : p.ElementsDone done)
    (he : (p.path, e) ∈ s.allElements) (hnew : Entity.ofElement (p.path, e) ∉ done)
    (hcount : done.length < s.entities.length) (hq : (p.inside e.name e.scope).Lies s)
    (hcontent : e.content = some c) (hc : c.WellFormed (p.inside e.name e.scope))
    (hinner : ∀ {later : TypeNames}, Register s (done ++ [Entity.ofElement (p.path, e)]) later →
      Ends s.Obstacle (Extends s (done ++ [Entity.ofElement (p.path, e)]) later
        ((ElementDef.elementsOfAll (e.name :: p.path) e.elements).map Entity.ofElement))
          (generateElements s (e.name :: p.path) later e.elements).result) :
    Ends s.Obstacle
      (Extends s done names ((e.elementsFrom p.path).map Entity.ofElement))
      (generateElement s p.path names e).result := by
  obtain ⟨root, hroot⟩ := hroot
  have hisRoot : (p.path.isEmpty && e.name == root) = true ↔
      p.path = [] ∧ s.root = some e.name := by
    rw [Schema.rootName_eq_ok.mp hroot, Bool.and_eq_true, List.isEmpty_iff, beq_iff_eq,
      Option.some.injEq, eq_comm (a := e.name)]
  rw [result_generateElement, hroot, ok_bind]
  have hbase :
      e.name ++ (if p.path.isEmpty && e.name == root then "Document" else "Element") ≠ "" := by
    split
    · exact ne_empty_of_append (by decide)
    · exact ne_empty_of_append (by decide)
  refine (h.generate hcount hbase).bind fun typeName _ hfree => ?_
  obtain ⟨hadd, hregister⟩ := h.add (e := .element p.path e.name) hnew hfree
    (.element p.path e.name)
  rw [lift_name_eq_ok.mpr hadd, ok_bind]
  refine (hinner hregister).bind fun g _ hg => ?_
  have hsub : done ⊆ done ++ [Entity.ofElement (p.path, e)] ++
      (ElementDef.elementsOfAll (e.name :: p.path) e.elements).map Entity.ofElement := by
    rw [List.append_assoc]
    exact List.subset_append_left _ _
  refine (elementType_ends hg.register (List.Subset.trans hvalues hsub)
    (List.Subset.trans hstructs hsub) he hq (elementsDone_inside hdone) hcontent hc typeName
    hisRoot).bind fun t _ ht => ?_
  rw [ElementDef.elementsFrom_eq]
  exact hg.element ht

/-- The elements of a scope are done one after the other, each with those inside it. What an element
refers to is done before: the elements around it, those before them, and those of its own scope. -/
theorem generateElements_ends {p : Place} {es : List ElementDef} (hwell : p.ElementsWellFormed es)
    (hroot : ∃ name, s.rootName = .ok name) (hp : p.Awaits s es) (h : Register s done names)
    (hvalues : s.allValueTypes.map Entity.ofValueType ⊆ done)
    (hstructs : s.allStructs.map Entity.ofStruct ⊆ done) (hdone : p.ElementsDone done)
    (hsub : ElementDef.elementsOfAll p.path es ⊆ s.allElements)
    (hnew : (done ++ (ElementDef.elementsOfAll p.path es).map Entity.ofElement).Nodup)
    (hcount : done.length + (ElementDef.elementsOfAll p.path es).length ≤ s.entities.length) :
    Ends s.Obstacle
      (Extends s done names ((ElementDef.elementsOfAll p.path es).map Entity.ofElement))
      (generateElements s p.path names es).result := by
  induction hwell generalizing done names with
  | nil => exact .nil h
  | @cons p e es c kept new leaves elements content_eq content rest ihElements ihRest =>
      have hinside := hp.inside new leaves
      rw [Place.path_inside] at ihElements
      rw [Place.path_addElements] at ihRest
      rw [ElementDef.elementsOfAll, List.map_append, ← List.append_assoc] at hnew
      rw [ElementDef.elementsOfAll, List.length_append] at hcount
      rw [ElementDef.elementsOfAll] at hsub
      have hself : (p.path, e) ∈ e.elementsFrom p.path := by
        rw [ElementDef.elementsFrom_eq]
        exact List.mem_cons_self
      have hfirst : Ends s.Obstacle
          (Extends s done names ((e.elementsFrom p.path).map Entity.ofElement))
          (generateElement s p.path names e).result := by
        have hfrom := (List.nodup_append.mp hnew).1
        rw [ElementDef.elementsFrom_eq, List.map_cons] at hfrom
        rw [ElementDef.elementsFrom_eq, List.length_cons] at hcount
        refine generateElement_ends hroot h hvalues hstructs hdone
          (hsub (List.mem_append_left _ hself)) ?_ (by omega) hinside.complete content_eq content
          fun hlater => ?_
        · intro hmem
          exact (List.nodup_append.mp hfrom).2.2 _ hmem _ List.mem_cons_self rfl
        · refine ihElements hinside hlater ?_ ?_ ?_ ?_ ?_ ?_
          · exact List.subset_append_of_subset_left _ hvalues
          · exact List.subset_append_of_subset_left _ hstructs
          · exact (hdone.mono (List.subset_append_left _ _)).inside
              (List.mem_append_right _ List.mem_cons_self) e.scope
          · intro x hx
            refine hsub (List.mem_append_left _ ?_)
            rw [ElementDef.elementsFrom_eq]
            exact List.mem_cons_of_mem _ hx
          · rwa [List.append_assoc]
          · rw [List.length_append, List.length_singleton]
            omega
      simp only [generateElements, Traced.result_bind, Traced.result_pure]
      refine hfirst.bind ?_
      rintro ⟨mid, types⟩ - hmid
      refine (ihRest hp.next hmid.register ?_ ?_ ?_ ?_ hnew ?_).bind ?_
      · exact List.subset_append_of_subset_left _ hvalues
      · exact List.subset_append_of_subset_left _ hstructs
      · refine (hdone.mono (List.subset_append_left _ _)).addElements fun f hf => ?_
        rw [List.mem_singleton.mp hf]
        exact List.mem_append_right _ (List.mem_map.mpr ⟨_, hself, rfl⟩)
      · exact fun x hx => hsub (List.mem_append_right _ hx)
      · rw [List.length_append, List.length_map]
        omega
      · rintro ⟨last, more⟩ - hlast
        rw [ElementDef.elementsOfAll, List.map_append]
        exact hmid.append hlast

/-- The generator gives every definition of a well formed schema a name and a type of its own, or it
meets an obstacle. -/
theorem declarations_ends (hs : s.WellFormed) :
    Ends s.Obstacle (Extends s [] .start s.entities) s.declarations.result := by
  have hnodup := hs.nodup_entities
  have hlength := s.length_entities
  have hroot : ∃ name, s.rootName = .ok name := by
    obtain ⟨name, hname, -⟩ := hs.root
    exact ⟨name, Schema.rootName_eq_ok.mpr hname⟩
  rw [Schema.entities] at hnodup
  have hleaves := (List.nodup_append.mp hnodup).1
  simp only [Schema.declarations, Traced.result_bind, Traced.result_pure]
  have henums := generateAll_ends .ofValueType []
    (fun x hx _ _ h _ => generateEnum_ends h hx (hs.valueType hx)) (.start s)
    (List.nil_subset _) (List.nodup_append.mp hleaves).1 (by rw [List.length_nil]; omega)
  refine henums.bind ?_
  rintro ⟨names, enums⟩ - henums
  have hstructs := generateAll_ends .ofStruct (s.allValueTypes.map .ofValueType)
    (fun x hx _ _ h hdone => generateStruct_ends h hdone hs hx) henums.register
    (List.subset_append_right _ _) hleaves
    (by rw [List.nil_append, List.length_map]; omega)
  refine hstructs.bind ?_
  rintro ⟨names, structs⟩ - hstructs
  have hdone := henums.append hstructs
  have helements := generateElements_ends hs.elements hroot hs.awaits hdone.register
    (List.subset_append_left _ _) (List.subset_append_right _ _)
    (fun q hq name hname => ?_) (List.Subset.refl _) hnodup
    (by
      rw [List.nil_append, List.length_append, List.length_map, List.length_map]
      exact Nat.le_of_eq hlength.symm)
  · refine helements.bind ?_
    rintro ⟨names, elements⟩ - helements
    exact hdone.append helements
  · rw [List.mem_singleton.mp hq] at hname
    cases hname

end Code

end SmlSchema
