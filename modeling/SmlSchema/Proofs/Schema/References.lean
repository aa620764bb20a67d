import Mathlib.Data.List.Nodup
import Mathlib.Data.Prod.Basic
import SmlSchema.Code.Generation
import SmlSchema.Proofs.Schema.Loading

/-! # What the references of a loaded schema stand for

While a schema is loaded, its scopes are seen half filled: a scope has all its value types, structs
and attributes before its first element, and an element is known by its name before it is complete.
What is found under a name is nevertheless what the finished schema has at the path of the
reference.
-/

namespace SmlSchema

/-- What is found under a name in a list has that name. -/
theorem mem_of_find?_name {k : α → String} {xs : List α} {x : α} {name : String}
    (h : xs.find? (k · == name) = some x) : x ∈ xs ∧ k x = name := by
  have hname := List.find?_some h
  exact ⟨List.mem_of_find?_eq_some h, eq_of_beq hname⟩

/-- Where names are told apart, each is found under its name. -/
theorem find?_name_of_mem {k : α → String} {xs : List α} {x : α} (h : (xs.map k).Nodup)
    (hx : x ∈ xs) : xs.find? (k · == k x) = some x := by
  have hsome : (xs.find? (k · == k x)).isSome :=
    List.find?_isSome.mpr ⟨x, hx, beq_self_eq_true (k x)⟩
  obtain ⟨y, hy⟩ := Option.isSome_iff_exists.mp hsome
  obtain ⟨hmem, hname⟩ := mem_of_find?_name hy
  rw [hy, List.inj_on_of_nodup_map h hmem hx hname]

/-- The leaves of a scope are its definitions other than elements. -/
theorem Scope.leaves_inj {s t : Scope} (h : s.leaves = t.leaves) :
    s.valueTypes = t.valueTypes ∧ s.structs = t.structs ∧ s.attributes = t.attributes := by
  rw [leaves, leaves, Scope.mk.injEq] at h
  exact ⟨h.1, h.2.1, h.2.2.1⟩

/-! ## All elements -/

mutual

/-- The element and all elements inside it, each with the path of the scope that defines it. -/
def ElementDef.elementsFrom (outer : Path) : ElementDef → List (Path × ElementDef)
  | ⟨name, valueTypes, structs, attributes, elements, content⟩ =>
    (outer, ⟨name, valueTypes, structs, attributes, elements, content⟩)
      :: ElementDef.elementsOfAll (name :: outer) elements
termination_by structural e => e

def ElementDef.elementsOfAll (outer : Path) : List ElementDef → List (Path × ElementDef)
  | [] => []
  | e :: es => e.elementsFrom outer ++ ElementDef.elementsOfAll outer es
termination_by structural es => es

end

/-- All elements with their scopes, from the outermost scope to the inner ones. -/
def Schema.allElements (s : Schema) : List (Path × ElementDef) :=
  ElementDef.elementsOfAll [] s.definitions.elements

namespace ElementDef

variable {outer path : Path} {e f : ElementDef} {es : List ElementDef}

/-- An element comes before those inside it. -/
theorem elementsFrom_eq (outer : Path) (e : ElementDef) :
    e.elementsFrom outer = (outer, e) :: elementsOfAll (e.name :: outer) e.elements := by
  cases e
  rfl

/-- The outermost elements are listed in their order. -/
theorem sublist_elementsOfAll (outer : Path) (es : List ElementDef) :
    (es.map (outer, ·)).Sublist (elementsOfAll outer es) := by
  induction es with
  | nil => exact List.nil_sublist _
  | cons e es ih =>
      rw [elementsOfAll, elementsFrom_eq, List.map_cons, List.cons_append]
      exact (ih.trans (List.sublist_append_right _ _)).cons_cons _

theorem mem_elementsOfAll (he : e ∈ es) : (outer, e) ∈ elementsOfAll outer es :=
  (sublist_elementsOfAll outer es).subset (List.mem_map.mpr ⟨e, he, rfl⟩)

mutual

/-- Each element has one scope. -/
theorem scopesFrom_eq_map (outer : Path) : ∀ e : ElementDef,
    e.scopesFrom outer = (e.elementsFrom outer).map fun x => (x.2.name :: x.1, x.2.scope)
  | ⟨name, valueTypes, structs, attributes, elements, content⟩ => by
      rw [scopesFrom, elementsFrom, List.map_cons, ← scopesOfAll_eq_map (name :: outer) elements]
      rfl
termination_by structural e => e

/-- Every scope but the outermost is that of an element. -/
theorem scopesOfAll_eq_map (outer : Path) : ∀ es : List ElementDef,
    scopesOfAll outer es = (elementsOfAll outer es).map fun x => (x.2.name :: x.1, x.2.scope)
  | [] => rfl
  | e :: es => by
      rw [scopesOfAll, elementsOfAll, List.map_append, scopesFrom_eq_map outer e,
        scopesOfAll_eq_map outer es]
termination_by structural es => es

end

mutual

/-- The elements inside an element come in order. -/
theorem inner_sublist_elementsFrom (outer : Path) : ∀ e : ElementDef,
    (path, f) ∈ e.elementsFrom outer →
      (f.elements.map (f.name :: path, ·)).Sublist (e.elementsFrom outer)
  | ⟨name, valueTypes, structs, attributes, elements, content⟩, h => by
      rw [elementsFrom, List.mem_cons] at h
      rw [elementsFrom]
      rcases h with h | h
      · cases h
        exact (sublist_elementsOfAll _ _).cons _
      · exact (inner_sublist_elementsOfAll (name :: outer) elements h).cons _
termination_by structural e => e

/-- The elements inside an element are listed in their order. -/
theorem inner_sublist_elementsOfAll (outer : Path) : ∀ es : List ElementDef,
    (path, f) ∈ elementsOfAll outer es →
      (f.elements.map (f.name :: path, ·)).Sublist (elementsOfAll outer es)
  | [], h => by cases h
  | e :: es, h => by
      rw [elementsOfAll, List.mem_append] at h
      rw [elementsOfAll]
      rcases h with h | h
      · exact (inner_sublist_elementsFrom outer e h).trans (List.sublist_append_left _ _)
      · exact (inner_sublist_elementsOfAll outer es h).trans (List.sublist_append_right _ _)
termination_by structural es => es

end

mutual

/-- Elements inside an element have its path in theirs. -/
theorem suffix_of_mem_elementsFrom (outer : Path) : ∀ e : ElementDef,
    (path, f) ∈ e.elementsFrom outer → e.name :: outer <:+ f.name :: path
  | ⟨name, valueTypes, structs, attributes, elements, content⟩, h => by
      rw [elementsFrom, List.mem_cons] at h
      rcases h with h | h
      · cases h
        exact List.suffix_refl _
      · obtain ⟨g, -, hg⟩ := suffix_of_mem_elementsOfAll (name :: outer) elements h
        exact (List.suffix_cons g.name _).trans hg
termination_by structural e => e

/-- The path of an element leads through one of the outermost elements of the list. -/
theorem suffix_of_mem_elementsOfAll (outer : Path) : ∀ es : List ElementDef,
    (path, f) ∈ elementsOfAll outer es → ∃ e ∈ es, e.name :: outer <:+ f.name :: path
  | [], h => by cases h
  | e :: es, h => by
      rw [elementsOfAll, List.mem_append] at h
      rcases h with h | h
      · exact ⟨e, List.mem_cons_self, suffix_of_mem_elementsFrom outer e h⟩
      · obtain ⟨d, hd, hsuffix⟩ := suffix_of_mem_elementsOfAll outer es h
        exact ⟨d, List.mem_cons_of_mem _ hd, hsuffix⟩
termination_by structural es => es

end

end ElementDef

namespace Schema

variable {s : Schema} {path : Path} {d : Scope} {e : ElementDef}

/-- The scopes are that of the schema and those of all elements. -/
theorem scopes_eq (s : Schema) :
    s.scopes = ([], s.definitions) :: s.allElements.map fun x => (x.2.name :: x.1, x.2.scope) := by
  rw [scopes, Scope.scopesFrom, ElementDef.scopesOfAll_eq_map]
  rfl

theorem mem_scopes_of_mem_allElements (h : (path, e) ∈ s.allElements) :
    (e.name :: path, e.scope) ∈ s.scopes := by
  rw [scopes_eq]
  exact List.mem_cons_of_mem _ (List.mem_map.mpr ⟨(path, e), h, rfl⟩)

/-- The elements of each scope are listed in their order. -/
theorem sublist_allElements (h : (path, d) ∈ s.scopes) :
    (d.elements.map (path, ·)).Sublist s.allElements := by
  rw [scopes_eq, List.mem_cons] at h
  rcases h with h | h
  · cases h
    exact ElementDef.sublist_elementsOfAll [] s.definitions.elements
  · obtain ⟨⟨outer, f⟩, hf, heq⟩ := List.mem_map.mp h
    cases heq
    exact ElementDef.inner_sublist_elementsOfAll [] s.definitions.elements hf

theorem mem_allElements_of_mem_scopes (h : (path, d) ∈ s.scopes) (he : e ∈ d.elements) :
    (path, e) ∈ s.allElements :=
  (sublist_allElements h).subset (List.mem_map.mpr ⟨e, he, rfl⟩)

/-- The scope at a path is one of the schema's scopes. -/
theorem mem_scopes_of_scopeAt? (h : s.scopeAt? path = some d) : (path, d) ∈ s.scopes := by
  induction path generalizing d with
  | nil =>
      cases h
      rw [scopes_eq]
      exact List.mem_cons_self
  | cons name outer ih =>
      obtain ⟨e, he, rfl⟩ := Option.map_eq_some_iff.mp h
      obtain ⟨o, ho, he⟩ := Option.bind_eq_some_iff.mp he
      obtain ⟨hmem, rfl⟩ := mem_of_find?_name he
      exact mem_scopes_of_mem_allElements (mem_allElements_of_mem_scopes (ih ho) hmem)

end Schema

/-! ## Places in a schema -/

namespace Place

/-- The place and those around it, from the inside to the outside. -/
def chain : Place → List Place
  | .top s => [.top s]
  | .within outer name s => .within outer name s :: outer.chain

theorem self_mem_chain (p : Place) : p ∈ p.chain := by
  cases p with
  | top s => exact List.mem_singleton_self _
  | within outer name s => exact List.mem_cons_self

/-- What is found is found in a scope of the chain. -/
theorem mem_chain_of_nearest? {f : Scope → Option α} {p q : Place} {a : α}
    (h : p.nearest? f = some (q, a)) : q ∈ p.chain := by
  induction p with
  | top s =>
      obtain ⟨b, -, heq⟩ := Option.map_eq_some_iff.mp h
      cases heq
      exact List.mem_singleton_self _
  | within outer name s ih =>
      rw [nearest?] at h
      split at h
      · cases h
        exact List.mem_cons_self
      · exact List.mem_cons_of_mem _ (ih h)

theorem mem_chain_withScope {p q : Place} {t : Scope} (h : q ∈ (p.withScope t).chain) :
    q = p.withScope t ∨ q ∈ p.chain := by
  cases p with
  | top s => exact .inl (List.mem_singleton.mp h)
  | within outer name s =>
      rcases List.mem_cons.mp h with h | h
      · exact .inl h
      · exact .inr (List.mem_cons_of_mem _ h)

@[simp] theorem path_addElements (p : Place) (es : List ElementDef) :
    (p.addElements es).path = p.path := by
  rw [addElements, path_withScope]

@[simp] theorem scope_addElements (p : Place) (es : List ElementDef) :
    (p.addElements es).scope = { p.scope with elements := p.scope.elements ++ es } := by
  rw [addElements, scope_withScope]

@[simp] theorem path_inside (p : Place) (name : String) (s : Scope) :
    (p.inside name s).path = name :: p.path := by
  rw [inside, path, path_addElements]

/-- Only the leaves of a scope matter. -/
theorem LeavesWellFormed.withScope {p : Place} {t : Scope} (h : p.LeavesWellFormed)
    (ht : t.leaves = p.scope.leaves) : (p.withScope t).LeavesWellFormed := by
  obtain ⟨hv, hs, ha⟩ := Scope.leaves_inj ht
  refine ⟨fun category hc => ?_, fun v hmem => ?_, fun d hmem => ?_, fun a hmem => ?_⟩
  · have hnodup := h.nodup category hc
    rw [scope_withScope]
    cases category with
    | valueType => rwa [Scope.names, hv]
    | struct => rwa [Scope.names, hs]
    | «attribute» => rwa [Scope.names, ha]
    | element => exact absurd rfl hc
  · rw [scope_withScope, hv] at hmem
    exact h.valueTypes v hmem
  · rw [scope_withScope, hs] at hmem
    exact (h.structs d hmem).withScope hv
  · rw [scope_withScope, ha] at hmem
    exact (h.attributes a hmem).withScope hv hs

/-- The element of the scope is the last one that the scope around it has got so far. -/
def IsNewest : Place → Prop
  | .top _ => True
  | .within outer name _ => (outer.scope.names .element).getLast? = some name

theorem IsNewest.withScope {p : Place} (h : p.IsNewest) (t : Scope) : (p.withScope t).IsNewest := by
  cases p with
  | top s => trivial
  | within outer name s => exact h

/-- The scope at the place holds what the schema has there, except that elements may still be to
come. -/
structure Agrees (s : Schema) (p : Place) : Prop where
  wellFormed : p.LeavesWellFormed
  scope : ∃ d, s.scopeAt? p.path = some d ∧ d.leaves = p.scope.leaves ∧
    p.scope.names .element <+: d.names .element
  newest : p.IsNewest

/-- The place and all those around it agree with the schema. -/
def Lies (s : Schema) (p : Place) : Prop := ∀ q ∈ p.chain, q.Agrees s

variable {s : Schema} {p q : Place} {e : ElementDef} {es : List ElementDef}

/-- A place still lies in the schema when its next elements are added. -/
theorem Lies.addElements (h : p.Lies s) {d : Scope} (hd : s.scopeAt? p.path = some d)
    (hes : p.scope.names .element ++ es.map (·.name) <+: d.names .element) :
    (p.addElements es).Lies s := by
  intro q hq
  rcases mem_chain_withScope hq with rfl | hq
  · obtain ⟨hleaves, ⟨d', hd', heq, -⟩, hnewest⟩ := h p p.self_mem_chain
    obtain rfl : d = d' := Option.some.inj (hd.symm.trans hd')
    refine ⟨hleaves.withScope rfl, ⟨d, ?_, ?_, ?_⟩, hnewest.withScope _⟩
    · rwa [path_withScope]
    · rwa [scope_withScope]
    · rwa [scope_withScope, Scope.names, List.map_append]
  · exact h q hq

/-- The place lies in the schema, whose scope there has yet to get the elements. -/
structure Awaits (s : Schema) (p : Place) (es : List ElementDef) : Prop where
  lies : p.Lies s
  scope : ∃ d, s.scopeAt? p.path = some d ∧ d.elements = p.scope.elements ++ es

namespace Awaits

/-- The scope of the next element is what the schema has at its path. -/
theorem scopeAt?_inside (h : p.Awaits s (e :: es)) (hnew : e.name ∉ p.scope.names .element) :
    s.scopeAt? (e.name :: p.path) = some e.scope := by
  obtain ⟨d, hd, hes⟩ := h.scope
  have hfind : d.element? e.name = some e := by
    rw [Scope.element?, hes, List.find?_append, List.find?_eq_none.mpr, Option.none_or]
    · exact List.find?_cons_of_pos (beq_self_eq_true e.name)
    · intro f hf hname
      exact hnew (List.mem_map.mpr ⟨f, hf, eq_of_beq hname⟩)
  rw [Schema.scopeAt?, hd, Option.bind_some, hfind, Option.map_some]

/-- The scope lies in the schema after it has got the next elements by name. -/
theorem lies_addElements {rest : List ElementDef} (next fs : List ElementDef)
    (h : p.Awaits s (next ++ rest))
    (hfs : fs.map (·.name) = next.map (·.name)) : (p.addElements fs).Lies s := by
  obtain ⟨d, hd, hes⟩ := h.scope
  refine h.lies.addElements hd ⟨rest.map (·.name), ?_⟩
  rw [hfs, Scope.names, Scope.names, hes, List.map_append, List.map_append, List.append_assoc]

/-- After an element the next one is awaited. -/
theorem next (h : p.Awaits s (e :: es)) : (p.addElements [e]).Awaits s es := by
  obtain ⟨d, hd, hes⟩ := h.scope
  refine ⟨lies_addElements [e] [e] h rfl, d, ?_, ?_⟩
  · rwa [path_addElements]
  · rw [hes, scope_addElements, List.append_assoc]
    rfl

/-- Inside an element its own elements are awaited. -/
theorem inside (h : p.Awaits s (e :: es)) (hnew : e.name ∉ p.scope.names .element)
    (hleaves : (p.inside e.name e.scope.leaves).LeavesWellFormed) :
    (p.inside e.name e.scope.leaves).Awaits s e.elements := by
  have hscope := h.scopeAt?_inside hnew
  refine ⟨fun q hq => ?_, e.scope, ?_, rfl⟩
  · rcases List.mem_cons.mp hq with rfl | hq
    · refine ⟨hleaves, ⟨e.scope, ?_, rfl, List.nil_prefix⟩, ?_⟩
      · exact (congrArg s.scopeAt? (path_inside p e.name e.scope.leaves)).trans hscope
      · change (Scope.names _ _).getLast? = some e.name
        rw [scope_addElements, Scope.names, List.map_append]
        exact List.getLast?_concat
    · exact lies_addElements [e] [{ name := e.name }] h rfl q hq
  · rw [path_inside, hscope]

/-- When all elements have come, the scope is complete. -/
theorem complete (h : p.Awaits s es) : (p.addElements es).Lies s := by
  have hall : p.Awaits s (es ++ []) := by rwa [List.append_nil]
  exact lies_addElements es es hall rfl

end Awaits

/-- Every element that is made at the place has its content in a place of its own. -/
theorem ElementsWellFormed.placed (h : p.ElementsWellFormed es) (hp : p.Awaits s es) {path : Path}
    {d : ElementDef} (hd : (path, d) ∈ ElementDef.elementsOfAll p.path es) :
    ∃ q c, q.path = d.name :: path ∧ q.scope = d.scope ∧ q.Lies s ∧ d.content = some c ∧
      c.WellFormed q := by
  induction h with
  | nil => cases hd
  | @cons p e es c kept new leaves elements content_eq content rest ihElements ihRest =>
      have hinside := hp.inside new leaves
      rw [ElementDef.elementsOfAll, ElementDef.elementsFrom_eq, List.cons_append,
        List.mem_cons, List.mem_append] at hd
      rcases hd with hd | hd | hd
      · cases hd
        exact ⟨p.inside d.name d.scope, c, path_inside p _ _, rfl, hinside.complete, content_eq,
          content⟩
      · exact ihElements hinside (by rwa [path_inside])
      · exact ihRest hp.next (by rwa [path_addElements])

end Place

namespace Schema

variable {s : Schema} {path : Path}

/-- The value types of a schema are those of its scopes. -/
theorem mem_allValueTypes {v : ValueType} :
    (path, v) ∈ s.allValueTypes ↔ ∃ d, (path, d) ∈ s.scopes ∧ v ∈ d.valueTypes := by
  simp [allValueTypes]

/-- The structs of a schema are those of its scopes. -/
theorem mem_allStructs {d : Struct} :
    (path, d) ∈ s.allStructs ↔ ∃ c, (path, c) ∈ s.scopes ∧ d ∈ c.structs := by
  simp [allStructs]

namespace WellFormed

/-- The elements of a well-formed schema are awaited from its start. -/
theorem awaits (h : s.WellFormed) :
    (Place.top s.definitions.leaves).Awaits s s.definitions.elements := by
  refine ⟨fun q hq => ?_, s.definitions, rfl, rfl⟩
  rw [List.mem_singleton.mp hq]
  exact ⟨h.leaves, ⟨s.definitions, rfl, rfl, List.nil_prefix⟩, trivial⟩

/-- Every element has its content in a place of its own. -/
theorem placed_element (h : s.WellFormed) {e : ElementDef} (he : (path, e) ∈ s.allElements) :
    ∃ q c, q.path = e.name :: path ∧ q.scope = e.scope ∧ q.Lies s ∧ e.content = some c ∧
      c.WellFormed q :=
  h.elements.placed h.awaits he

/-- Every scope has its value types, structs and attributes in a place of its own. -/
theorem placed_scope (h : s.WellFormed) {d : Scope} (hd : (path, d) ∈ s.scopes) :
    ∃ q : Place, q.path = path ∧ q.scope.leaves = d.leaves ∧ q.Lies s := by
  rw [scopes_eq, List.mem_cons] at hd
  rcases hd with hd | hd
  · cases hd
    exact ⟨.top s.definitions.leaves, rfl, rfl, h.awaits.lies⟩
  · obtain ⟨⟨outer, e⟩, he, heq⟩ := List.mem_map.mp hd
    cases heq
    obtain ⟨q, c, hpath, hscope, hlies, -⟩ := h.placed_element he
    exact ⟨q, hpath, congrArg Scope.leaves hscope, hlies⟩

end WellFormed

end Schema

/-! ## References -/

/-- The type is predefined, or the schema has a value type of the name at the path. -/
def ValueBase.DefinedIn (s : Schema) : ValueBase → Prop
  | .predefined _ => True
  | .valueType path name => ∃ v, (path, v) ∈ s.allValueTypes ∧ v.name = name

/-- The type is that of a value, or the schema has a struct of the name at the path. -/
def Base.DefinedIn (s : Schema) : Base → Prop
  | .value b => b.DefinedIn s
  | .struct path name => ∃ d, (path, d) ∈ s.allStructs ∧ d.name = name

namespace Place.Lies

variable {s : Schema} {p q : Place} {name : String}

/-- A scope of the chain is a scope of the schema, but for its elements. -/
theorem mem_scopes (h : p.Lies s) (hq : q ∈ p.chain) :
    ∃ d, (q.path, d) ∈ s.scopes ∧ d.leaves = q.scope.leaves := by
  obtain ⟨d, hd, heq, -⟩ := (h q hq).scope
  exact ⟨d, Schema.mem_scopes_of_scopeAt? hd, heq⟩

/-- The places around one that lies in the schema lie in it. -/
theorem of_mem_chain (h : p.Lies s) (hq : q ∈ p.chain) : q.Lies s := by
  have htrans : ∀ {p : Place}, q ∈ p.chain → q.chain ⊆ p.chain := by
    intro p hq
    induction p with
    | top t =>
        rw [List.mem_singleton.mp hq]
        exact List.Subset.refl _
    | within outer name t ih =>
        rcases List.mem_cons.mp hq with rfl | hq
        · exact List.Subset.refl _
        · exact List.subset_cons_of_subset _ (ih hq)
  exact fun r hr => h r (htrans hq hr)

/-- A type of single values that is found is defined in the schema. -/
theorem valueBase (h : p.Lies s) {b : ValueBase} (hb : p.valueBase? name = some b) :
    b.DefinedIn s := by
  unfold valueBase? at hb
  split at hb
  · cases hb
    exact trivial
  · obtain ⟨⟨q, v⟩, hv, rfl⟩ := Option.map_eq_some_iff.mp hb
    obtain ⟨d, hd, heq⟩ := h.mem_scopes (mem_chain_of_nearest? hv)
    obtain ⟨hmem, hname⟩ := mem_of_find?_name (nearest?_eq_some hv)
    refine ⟨v, Schema.mem_allValueTypes.mpr ⟨d, hd, ?_⟩, hname⟩
    rw [(Scope.leaves_inj heq).1]
    exact hmem

/-- A base that is found is defined in the schema. -/
theorem base (h : p.Lies s) {c : Candidate} {b : Base} (hc : p.base? name = some c)
    (hb : c.base? = some b) : b.DefinedIn s := by
  unfold base? at hc
  split at hc
  · rename_i v hv
    cases hc
    cases hb
    exact h.valueBase hv
  · obtain ⟨⟨q, d⟩, hq, rfl⟩ := Option.map_eq_some_iff.mp hc
    cases hb
    obtain ⟨e, he, heq⟩ := h.mem_scopes (mem_chain_of_nearest? hq)
    obtain ⟨hmem, -⟩ := mem_of_find?_name (nearest?_eq_some hq)
    refine ⟨d, Schema.mem_allStructs.mpr ⟨e, he, ?_⟩, rfl⟩
    rw [(Scope.leaves_inj heq).2.1]
    exact hmem

/-- The base of a type that was read is defined in the schema. -/
theorem dataType (h : p.Lies s) {text : String} {t : DataType} (ht : DataType.read p text = .ok t) :
    t.base.DefinedIn s := by
  obtain ⟨name, c, hc, -, hmake, -⟩ := DataType.read_eq_ok ht
  exact h.base hc (DataType.make_eq_ok hmake).1

end Place.Lies

/-! ### What a reference names -/

namespace ElementDef

def attributeEntries (e : ElementDef) : List AttributeEntry :=
  match e.content with
  | some (.unordered attributes _) => attributes
  | _ => []

def elementEntries (e : ElementDef) : List ElementEntry :=
  match e.content with
  | some (.unordered _ elements) => elements
  | _ => []

end ElementDef

/-- The value type that a scope of the schema defines. -/
def Schema.valueTypeAt? (s : Schema) (path : Path) (name : String) : Option ValueType :=
  (s.scopeAt? path).bind (·.valueType? name)

/-- The struct that a scope of the schema defines. -/
def Schema.structAt? (s : Schema) (path : Path) (name : String) : Option Struct :=
  (s.scopeAt? path).bind (·.struct? name)

theorem Schema.mem_allStructs_of_structAt? {s : Schema} {path : Path} {name : String} {d : Struct}
    (h : s.structAt? path name = some d) : (path, d) ∈ s.allStructs := by
  obtain ⟨c, hc, hd⟩ := Option.bind_eq_some_iff.mp h
  exact mem_allStructs.mpr ⟨c, mem_scopes_of_scopeAt? hc, List.mem_of_find?_eq_some hd⟩

/-- The element that a scope of the schema defines. -/
def Schema.elementAt? (s : Schema) (path : Path) (name : String) : Option ElementDef :=
  (s.scopeAt? path).bind (·.element? name)

theorem Schema.mem_allElements_of_elementAt? {s : Schema} {path : Path} {name : String}
    {e : ElementDef} (h : s.elementAt? path name = some e) :
    (path, e) ∈ s.allElements ∧ e.name = name := by
  obtain ⟨d, hd, he⟩ := Option.bind_eq_some_iff.mp h
  obtain ⟨hmem, hname⟩ := mem_of_find?_name he
  exact ⟨mem_allElements_of_mem_scopes (mem_scopes_of_scopeAt? hd) hmem, hname⟩

/-- The type of an attribute of an element. -/
def AttributeEntry.type? (s : Schema) (a : AttributeEntry) : Option DataType :=
  (Code.entryDefinition s a).toOption.bind (·.type)

/-- The type of an entry is that of its definition. -/
theorem AttributeEntry.type?_eq_some {s : Schema} {a : AttributeEntry} {t : DataType} :
    a.type? s = some t ↔ ∃ d, Code.entryDefinition s a = .ok d ∧ d.type = some t := by
  unfold type?
  cases Code.entryDefinition s a <;> simp [Except.toOption]

/-- An attribute of well formed content has a type, which is made of what the schema defines. -/
theorem AttributeEntry.WellFormed.type? {s : Schema} {p : Place} {a : AttributeEntry}
    (h : a.WellFormed p) (hp : p.Lies s) : ∃ t, a.type? s = some t ∧ t.base.DefinedIn s := by
  cases h with
  | @defined q a name o kept word found =>
      have hq := Place.mem_chain_of_nearest? found
      obtain ⟨hleaves, ⟨d, hd, heq, -⟩, -⟩ := hp q hq
      have hfind : q.scope.attribute? name = some a := Place.nearest?_eq_some found
      obtain ⟨t, ht, hread, -⟩ := (hleaves.attributes a (mem_of_find?_name hfind).1).type
      refine ⟨t, type?_eq_some.mpr ⟨a, ?_, ht⟩, (hp.of_mem_chain hq).dataType hread⟩
      have hattribute : d.attribute? name = some a := by
        rw [Scope.attribute?, (Scope.leaves_inj heq).2.2]
        exact hfind
      simp only [Code.entryDefinition, hd, Option.bind_some, hattribute]
  | @inline a o definition word =>
      obtain ⟨t, ht, hread, -⟩ := definition.type
      exact ⟨t, type?_eq_some.mpr ⟨a, rfl, ht⟩, hp.dataType hread⟩

/-- A child element of well formed content is one of the schema's elements. -/
theorem ElementEntry.WellFormed.elementAt? {s : Schema} {p : Place} {x : ElementEntry}
    (h : x.WellFormed p) (hp : p.Lies s) : ∃ e, s.elementAt? x.scope x.name = some e := by
  cases h with
  | @mk q e name o kept word found =>
      obtain ⟨d, hd, -, hnames⟩ := (hp q (Place.mem_chain_of_nearest? found)).scope
      obtain ⟨hmem, hname⟩ := mem_of_find?_name (Place.nearest?_eq_some found)
      obtain ⟨f, hf, heq⟩ := List.mem_map.mp
        (hnames.subset (List.mem_map.mpr ⟨e, hmem, hname⟩))
      have hsome : (d.element? name).isSome :=
        List.find?_isSome.mpr ⟨f, hf, beq_iff_eq.mpr heq⟩
      obtain ⟨g, hg⟩ := Option.isSome_iff_exists.mp hsome
      refine ⟨g, ?_⟩
      simp only [Schema.elementAt?, hd, Option.bind_some, hg]

namespace Schema.WellFormed

variable {s : Schema} {path : Path}

/-- The value types of a well-formed schema are well formed. -/
theorem valueType (h : s.WellFormed) {v : ValueType} (hv : (path, v) ∈ s.allValueTypes) :
    v.WellFormed := by
  obtain ⟨d, hd, hmem⟩ := mem_allValueTypes.mp hv
  obtain ⟨q, -, heq, hlies⟩ := h.placed_scope hd
  rw [← (Scope.leaves_inj heq).1] at hmem
  exact (hlies q q.self_mem_chain).wellFormed.valueTypes v hmem

/-- The structs of a well-formed schema are well formed where they lie. -/
theorem struct (h : s.WellFormed) {d : Struct} (hd : (path, d) ∈ s.allStructs) :
    ∃ q : Place, q.Lies s ∧ d.WellFormed q := by
  obtain ⟨c, hc, hmem⟩ := mem_allStructs.mp hd
  obtain ⟨q, -, heq, hlies⟩ := h.placed_scope hc
  rw [← (Scope.leaves_inj heq).2.1] at hmem
  exact ⟨q, hlies, (hlies q q.self_mem_chain).wellFormed.structs d hmem⟩

/-- The values of a struct have types that the schema defines. -/
theorem structValue (h : s.WellFormed) {d : Struct} (hd : (path, d) ∈ s.allStructs)
    {v : StructValue} (hv : v ∈ d.values) : v.base.DefinedIn s := by
  obtain ⟨q, hlies, hwell⟩ := h.struct hd
  obtain ⟨cs, -, hbase⟩ := Loader.readValueType_eq_ok.mp (hwell.values v hv).read_typeText
  exact hlies.valueBase hbase

end Schema.WellFormed

/-! ## Entities -/

namespace Place.ElementsWellFormed

variable {p : Place} {es : List ElementDef}

/-- New elements have new names. -/
theorem new_names (h : p.ElementsWellFormed es) : ∀ e ∈ es, e.name ∉ p.scope.names .element := by
  induction h with
  | nil => nofun
  | @cons p e es c kept new leaves elements content_eq content rest _ ih =>
      intro f hf
      rcases List.mem_cons.mp hf with rfl | hf
      · exact new
      · intro hname
        refine ih f hf ?_
        rw [scope_addElements, Scope.names, List.map_append]
        exact List.mem_append_left _ hname

/-- No two elements have the same scope. -/
theorem nodup_paths (h : p.ElementsWellFormed es) :
    ((ElementDef.elementsOfAll p.path es).map fun x => x.2.name :: x.1).Nodup := by
  induction h with
  | nil => exact .nil
  | @cons p e es c kept new leaves elements content_eq content rest ihElements ihRest =>
      rw [path_inside] at ihElements
      rw [path_addElements] at ihRest
      have hfrom : ((e.elementsFrom p.path).map fun x => x.2.name :: x.1).Nodup := by
        rw [ElementDef.elementsFrom_eq, List.map_cons, List.nodup_cons]
        refine ⟨fun hmem => ?_, ihElements⟩
        obtain ⟨⟨path, f⟩, hf, heq⟩ := List.mem_map.mp hmem
        obtain ⟨g, -, hg⟩ := ElementDef.suffix_of_mem_elementsOfAll _ _ hf
        rw [show f.name :: path = e.name :: p.path from heq] at hg
        have hlength := hg.length_le
        simp only [List.length_cons] at hlength
        omega
      rw [ElementDef.elementsOfAll, List.map_append]
      refine List.nodup_append.mpr ⟨hfrom, ihRest, fun path hleft path' hright heq => ?_⟩
      obtain ⟨⟨outer, f⟩, hf, rfl⟩ := List.mem_map.mp hleft
      obtain ⟨⟨outer', g⟩, hg, rfl⟩ := List.mem_map.mp hright
      have hsuffix := ElementDef.suffix_of_mem_elementsFrom _ _ hf
      obtain ⟨d, hd, hsuffix'⟩ := ElementDef.suffix_of_mem_elementsOfAll _ _ hg
      rw [show g.name :: outer' = f.name :: outer from heq.symm] at hsuffix'
      have hname :=
        (List.suffix_of_suffix_length_le hsuffix' hsuffix (by simp)).eq_of_length (by simp)
      refine rest.new_names d hd ?_
      rw [(List.cons.inj hname).1, scope_addElements, Scope.names, List.map_append]
      exact List.mem_append_right _ List.mem_cons_self

end Place.ElementsWellFormed

namespace Entity

def ofValueType (x : Path × ValueType) : Entity := .valueType x.1 x.2.name

def ofStruct (x : Path × Struct) : Entity := .struct x.1 x.2.name

def ofElement (x : Path × ElementDef) : Entity := .element x.1 x.2.name

/-- The path of the scope and the name in it. -/
def key : Entity → Path × String
  | .valueType scope name => (scope, name)
  | .struct scope name => (scope, name)
  | .element scope name => (scope, name)

end Entity

/-- Definitions of one kind are told apart by their paths and names. -/
theorem nodup_definitions {ds : List (Path × Scope)} (hpaths : (ds.map (·.1)).Nodup)
    {f : Scope → List α} {k : α → String} (hnames : ∀ d ∈ ds, ((f d.2).map k).Nodup) :
    ((ds.flatMap fun d => (f d.2).map (d.1, ·)).map fun x => (x.1, k x.2)).Nodup := by
  induction ds with
  | nil => exact .nil
  | cons d ds ih =>
      rw [List.map_cons, List.nodup_cons] at hpaths
      rw [List.flatMap_cons, List.map_append, List.map_map]
      refine List.nodup_append.mpr ⟨?_, ih hpaths.2 fun e he => hnames e (by simp [he]), ?_⟩
      · have hnodup := (hnames d List.mem_cons_self).map (Prod.mk_right_injective d.1)
        rwa [List.map_map] at hnodup
      · intro x hx y hy hxy
        obtain ⟨a, -, rfl⟩ := List.mem_map.mp hx
        obtain ⟨z, hz, rfl⟩ := List.mem_map.mp hy
        obtain ⟨e, he, hz⟩ := List.mem_flatMap.mp hz
        obtain ⟨b, -, rfl⟩ := List.mem_map.mp hz
        exact hpaths.1 (List.mem_map.mpr ⟨e, he, (Prod.mk.inj hxy).1.symm⟩)

namespace Schema

/-- All definitions that get types of their own: value types, then structs, then elements. -/
def entities (s : Schema) : List Entity :=
  s.allValueTypes.map .ofValueType ++ s.allStructs.map .ofStruct ++ s.allElements.map .ofElement

variable {s : Schema}

namespace WellFormed

/-- No two scopes of a well-formed schema have the same path. -/
theorem nodup_paths (h : s.WellFormed) : (s.scopes.map (·.1)).Nodup := by
  rw [scopes_eq, List.map_cons, List.map_map, List.nodup_cons]
  refine ⟨?_, h.elements.nodup_paths⟩
  simp

/-- In each scope of a well-formed schema names are different. -/
theorem nodup_names (h : s.WellFormed) {d : Path × Scope} (hd : d ∈ s.scopes) (category : Category)
    (hc : category ≠ .element) : (d.2.names category).Nodup := by
  obtain ⟨q, -, heq, hlies⟩ := h.placed_scope hd
  have hnodup := (hlies q q.self_mem_chain).wellFormed.nodup category hc
  obtain ⟨hv, hs, ha⟩ := Scope.leaves_inj heq
  cases category with
  | valueType => rwa [Scope.names, ← hv]
  | struct => rwa [Scope.names, ← hs]
  | «attribute» => rwa [Scope.names, ← ha]
  | element => exact absurd rfl hc

/-- A scope of a well-formed schema is found at its path. -/
theorem scopeAt?_of_mem (h : s.WellFormed) {path : Path} {d : Scope} (hd : (path, d) ∈ s.scopes) :
    s.scopeAt? path = some d := by
  obtain ⟨q, rfl, -, hlies⟩ := h.placed_scope hd
  obtain ⟨c, hc, -⟩ := (hlies q q.self_mem_chain).scope
  have heq : (q.path, c) = (q.path, d) :=
    List.inj_on_of_nodup_map h.nodup_paths (mem_scopes_of_scopeAt? hc) hd rfl
  cases heq
  exact hc

theorem valueTypeAt?_of_mem (h : s.WellFormed) {path : Path} {v : ValueType}
    (hv : (path, v) ∈ s.allValueTypes) : s.valueTypeAt? path v.name = some v := by
  obtain ⟨d, hd, hmem⟩ := mem_allValueTypes.mp hv
  rw [valueTypeAt?, h.scopeAt?_of_mem hd, Option.bind_some]
  exact find?_name_of_mem (h.nodup_names hd .valueType nofun) hmem

/-- A struct of a well-formed schema is found at its path and name. -/
theorem structAt?_of_mem (h : s.WellFormed) {path : Path} {d : Struct}
    (hd : (path, d) ∈ s.allStructs) : s.structAt? path d.name = some d := by
  obtain ⟨c, hc, hmem⟩ := mem_allStructs.mp hd
  rw [structAt?, h.scopeAt?_of_mem hc, Option.bind_some]
  exact find?_name_of_mem (h.nodup_names hc .struct nofun) hmem

/-- No two definitions of a well formed schema are taken for each other. -/
theorem nodup_entities (h : s.WellFormed) : s.entities.Nodup := by
  have hvalueTypes : (s.allValueTypes.map Entity.ofValueType).Nodup := by
    refine .of_map Entity.key ?_
    rw [List.map_map]
    exact nodup_definitions h.nodup_paths fun d hd => h.nodup_names hd .valueType nofun
  have hstructs : (s.allStructs.map Entity.ofStruct).Nodup := by
    refine .of_map Entity.key ?_
    rw [List.map_map]
    exact nodup_definitions h.nodup_paths fun d hd => h.nodup_names hd .struct nofun
  have helements : (s.allElements.map Entity.ofElement).Nodup := by
    refine .of_map (fun e => e.key.2 :: e.key.1) ?_
    rw [List.map_map]
    exact h.elements.nodup_paths
  refine List.nodup_append.mpr ⟨List.nodup_append.mpr ⟨hvalueTypes, hstructs, ?_⟩, helements, ?_⟩
  · rintro _ hv _ hd rfl
    obtain ⟨v, -, rfl⟩ := List.mem_map.mp hv
    obtain ⟨d, -, heq⟩ := List.mem_map.mp hd
    cases heq
  · rintro _ hleaf _ he rfl
    obtain ⟨e, -, rfl⟩ := List.mem_map.mp he
    rcases List.mem_append.mp hleaf with hv | hd
    · obtain ⟨v, -, heq⟩ := List.mem_map.mp hv
      cases heq
    · obtain ⟨d, -, heq⟩ := List.mem_map.mp hd
      cases heq

/-- An element of a well-formed schema is found at its path and name. -/
theorem elementAt?_of_mem (h : s.WellFormed) {path : Path} {e : ElementDef}
    (he : (path, e) ∈ s.allElements) : s.elementAt? path e.name = some e := by
  have hscope := h.scopeAt?_of_mem (mem_scopes_of_mem_allElements he)
  obtain ⟨f, hf, -⟩ := Option.map_eq_some_iff.mp hscope
  obtain ⟨hmem, hname⟩ := mem_allElements_of_elementAt? hf
  have hnodup := (List.nodup_append.mp h.nodup_entities).2.1
  have heq : (path, f) = (path, e) :=
    List.inj_on_of_nodup_map hnodup hmem he (congrArg (Entity.element path) hname)
  cases heq
  exact hf

end WellFormed

end Schema

end SmlSchema
