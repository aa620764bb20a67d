import SmlSchema.Proofs.Schema.Effects

/-! # What every run of commands keeps

However a schema was built, its enumerations have different labels, its structs have their optional
values at the end, no content has two entries of a name, and every entry names something that is
defined in a scope around it. Each change of a scope keeps this for the scope, and since names are
never taken away, the entries of the other scopes stay right.
-/

namespace SmlSchema

/-- An enumeration has labels, and no two are equal. -/
def ValueType.Consistent : ValueType → Prop
  | .enum _ labels => labels ≠ [] ∧ labels.Nodup
  | .reserved _ _ => True

/-- No two values have the same name, and no required value comes after an optional one. -/
structure Struct.Consistent (r : Struct) : Prop where
  names : (r.values.map (·.name)).Nodup
  required : r.values.Pairwise fun v w => v.optional → w.optional

/-- The scope at the path defines the name. -/
def Schema.Defines (s : Schema) (path : Path) (category : Category) (name : String) : Prop :=
  ∃ d, s.scopeAt? path = some d ∧ name ∈ d.names category

/-- No two entries of the content have the same name, and what an entry refers to is defined in the
scope of the element or around it. -/
structure ElementDef.Consistent (s : Schema) (path : Path) (e : ElementDef) : Prop where
  attributeNames : (e.attributeEntries.map (·.name)).Nodup
  elementNames : (e.elementEntries.map (·.name)).Nodup
  attributes : ∀ scope name o, .defined scope name o ∈ e.attributeEntries →
    scope <:+ e.name :: path ∧ s.Defines scope .attribute name
  elements : ∀ x ∈ e.elementEntries,
    x.scope <:+ e.name :: path ∧ s.Defines x.scope .element x.name

/-- The definitions of the scope at the path are consistent. -/
structure Scope.Consistent (s : Schema) (path : Path) (d : Scope) : Prop where
  names : ∀ category, (d.names category).Nodup
  valueTypes : ∀ v ∈ d.valueTypes, v.Consistent
  structs : ∀ r ∈ d.structs, r.Consistent
  elements : ∀ e ∈ d.elements, e.Consistent s path

/-- All scopes are consistent, and the root is one of the outermost elements. -/
structure Schema.Consistent (s : Schema) : Prop where
  scopes : ∀ path d, (path, d) ∈ s.scopes → d.Consistent s path
  root : ∀ name, s.root = some name → name ∈ s.definitions.names .element

/-! ## Structs -/

namespace Struct

variable {r : Struct} {v : StructValue}

/-- The required values are the first ones. -/
theorem Consistent.required_iff (h : r.Consistent) {i : Nat} (hi : r.values[i]? = some v) :
    v.optional = false ↔ i < r.requiredCount := by
  have hrequired := h.required
  unfold requiredCount
  generalize r.values = vs at hrequired hi
  induction vs generalizing i with
  | nil => cases hi
  | cons w vs ih =>
      obtain ⟨hw, hvs⟩ := List.pairwise_cons.mp hrequired
      cases hopt : w.optional with
      | true =>
          -- From here on all values are optional.
          have hall : ∀ u ∈ w :: vs, u.optional = true := by
            intro u hu
            rcases List.mem_cons.mp hu with rfl | hu
            · exact hopt
            · exact hw u hu hopt
          have hnone : (w :: vs).filter (!·.optional) = [] :=
            List.filter_eq_nil_iff.mpr fun u hu => by simp [hall u hu]
          rw [hnone, hall v (List.mem_of_getElem? hi)]
          simp
      | false =>
          rw [List.filter_cons_of_pos (by simp [hopt]), List.length_cons]
          cases i with
          | zero =>
              cases hi
              simp [hopt]
          | succ i => exact (ih hvs hi).trans (Nat.succ_lt_succ_iff).symm

theorem value_of_newValue {name : String} {optional nullable : Bool} {c : Candidate}
    (h : r.newValue name optional c nullable = .ok v) :
    ∃ base, c = .value base ∧ v = { name, optional, base, nullable } := by
  unfold newValue at h
  split at h
  · cases h
  · split at h
    · cases h
    · cases c with
      | value base =>
          cases h
          exact ⟨base, rfl, rfl⟩
      | struct scope d => cases h
      | foreign shown => cases h

/-- A struct stays consistent when a new value is added. -/
theorem Consistent.push {name : String} {optional nullable : Bool} {c : Candidate}
    (h : r.Consistent) (hv : r.newValue name optional c nullable = .ok v) :
    (r.push v).Consistent := by
  obtain ⟨base, rfl, -⟩ := value_of_newValue hv
  obtain ⟨hname, hopt, rfl⟩ := (newValue_eq_ok h.required).mp hv
  refine ⟨nodup_concat.mpr ⟨h.names, hname⟩, List.pairwise_append.mpr ⟨h.required, ?_, ?_⟩⟩
  · exact List.pairwise_singleton _ _
  · intro w hw u hu
    rw [List.mem_singleton.mp hu]
    exact hopt w hw

end Struct

/-! ## Names -/

namespace Schema

variable {s t : Schema} {path other : Path} {d d' : Scope} {category : Category} {name : String}

/-- A scope defines what its level has. -/
theorem defines_iff_level? :
    s.Defines path category name ↔ ∃ d, s.level? path = some d ∧ name ∈ d.names category := by
  constructor
  · rintro ⟨d, hd, hname⟩
    exact ⟨d.shallow, level?_eq_some.mpr ⟨d, hd, rfl⟩, by rwa [Scope.names_shallow]⟩
  · rintro ⟨_, hlevel, hname⟩
    obtain ⟨d, hd, rfl⟩ := level?_eq_some.mp hlevel
    exact ⟨d, hd, by rwa [Scope.names_shallow] at hname⟩

/-- A name that is defined stays defined. -/
theorem ChangedAt.defines (h : s.ChangedAt t path d d')
    (hnames : d.names category ⊆ d'.names category) (hs : s.Defines other category name) :
    t.Defines other category name := by
  rw [defines_iff_level?] at hs ⊢
  obtain ⟨e, he, hname⟩ := hs
  rcases h.kept he with ⟨rfl, rfl⟩ | hsame
  · exact ⟨d', h.after, hnames hname⟩
  · exact ⟨e, hsame, hname⟩

end Schema

namespace Place

variable {s : Schema} {p q : Place} {name : String}

/-- An attribute that is found is defined in a scope around. -/
theorem defines_of_attribute? {a : AttributeDef} (hp : s.placeAt? p.path = some p)
    (h : p.attribute? name = some (q, a)) :
    q.path <:+ p.path ∧ s.Defines q.path .attribute name := by
  obtain ⟨hmem, rfl⟩ := mem_of_find?_name (nearest?_eq_some h)
  have hq := placeAt?_of_nearest? hp h
  exact ⟨suffix_of_mem_chain (mem_chain_of_nearest? h), q.scope, Schema.scopeAt?_of_placeAt? hq,
    List.mem_map_of_mem hmem⟩

/-- An element that is found is defined in a scope around. -/
theorem defines_of_element? {e : ElementDef} (hp : s.placeAt? p.path = some p)
    (h : p.element? name = some (q, e)) :
    q.path <:+ p.path ∧ s.Defines q.path .element name := by
  obtain ⟨hmem, rfl⟩ := mem_of_find?_name (nearest?_eq_some h)
  have hq := placeAt?_of_nearest? hp h
  exact ⟨suffix_of_mem_chain (mem_chain_of_nearest? h), q.scope, Schema.scopeAt?_of_placeAt? hq,
    List.mem_map_of_mem hmem⟩

end Place

/-! ## One change -/

namespace ElementDef

variable {s t : Schema} {path : Path} {e : ElementDef}

theorem consistent_of_no_entries (ha : e.attributeEntries = []) (he : e.elementEntries = []) :
    e.Consistent s path := by
  constructor <;> simp [ha, he]

/-- An element stays consistent while definitions are added. -/
theorem Consistent.mono (h : e.Consistent s path)
    (hst : ∀ path category name, s.Defines path category name → t.Defines path category name) :
    e.Consistent t path where
  attributeNames := h.attributeNames
  elementNames := h.elementNames
  attributes := fun scope name o hx =>
    (h.attributes scope name o hx).imp_right (hst scope .attribute name)
  elements := fun x hx => (h.elements x hx).imp_right (hst x.scope .element x.name)

end ElementDef

namespace Action

variable {s t : Schema} {p : Place} {a : Action} {path : Path} {d d' : Scope}

/-- An entry is added with a new name and refers to what was found from the scope of the element. -/
theorem ChangesContent.consistent {name : String} {old : Option Content} {new : Content}
    (h : a.ChangesContent p old new) (hp : s.placeAt? p.path = some p)
    (hpath : p.path = name :: path)
    (hold : ElementDef.Consistent s path { name, content := old }) :
    ElementDef.Consistent s path { name, content := some new } := by
  obtain ⟨hattributeNames, helementNames, hattributes, helements⟩ := hold
  cases h with
  | start => exact ElementDef.consistent_of_no_entries rfl rfl
  | element _ new found =>
      refine ⟨hattributeNames, nodup_concat.mpr ⟨helementNames, new⟩, hattributes, ?_⟩
      refine List.forall_mem_append.mpr ⟨helements, List.forall_mem_singleton.mpr ?_⟩
      rw [← hpath]
      exact Place.defines_of_element? hp found
  | «attribute» _ new found =>
      refine ⟨nodup_concat.mpr ⟨hattributeNames, new⟩, helementNames, ?_, helements⟩
      intro scope n o hx
      rcases List.mem_append.mp hx with hx | hx
      · exact hattributes scope n o hx
      · cases List.mem_singleton.mp hx
        rw [← hpath]
        exact Place.defines_of_attribute? hp found
  | inline _ new =>
      refine ⟨nodup_concat.mpr ⟨hattributeNames, new⟩, helementNames, ?_, helements⟩
      intro scope n o hx
      rcases List.mem_append.mp hx with hx | hx
      · exact hattributes scope n o hx
      · cases List.mem_singleton.mp hx

/-- A change of a level takes no definition away. -/
theorem Changes.names_subset (h : a.Changes p path d d') (category : Category) :
    d.names category ⊆ d'.names category := by
  rcases h.names category with hsame | ⟨name, -, hadded⟩
  · rw [hsame]
    exact List.Subset.refl _
  · rw [hadded]
    exact List.subset_append_left _ _

/-- A change of a level keeps names different. -/
theorem Changes.nodup_names (h : a.Changes p path d d') {category : Category}
    (hd : (d.names category).Nodup) : (d'.names category).Nodup := by
  rcases h.names category with hsame | ⟨name, hnew, hadded⟩
  · rwa [hsame]
  · rw [hadded, ← List.concat_eq_append]
    exact hd.concat hnew

/-- A change of a level keeps value types consistent. -/
theorem Changes.valueTypes (h : a.Changes p path d d') (hd : ∀ v ∈ d.valueTypes, v.Consistent) :
    ∀ v ∈ d'.valueTypes, v.Consistent := by
  cases h with
  | addEnum some_label nodup =>
      exact List.forall_mem_append.mpr ⟨hd, List.forall_mem_singleton.mpr ⟨some_label, nodup⟩⟩
  | addReserved => exact List.forall_mem_append.mpr ⟨hd, List.forall_mem_singleton.mpr trivial⟩
  | _ => exact hd

/-- A change of a level keeps structs consistent. -/
theorem Changes.structs (h : a.Changes p path d d') (hnames : (d.names .struct).Nodup)
    (hd : ∀ r ∈ d.structs, r.Consistent) : ∀ r ∈ d'.structs, r.Consistent := by
  cases h with
  | @addStruct name =>
      have hempty : Struct.Consistent { name } := ⟨List.nodup_nil, List.Pairwise.nil⟩
      exact List.forall_mem_append.mpr ⟨hd, List.forall_mem_singleton.mpr hempty⟩
  | @addStructValue struct _ _ _ _ _ _ _ r _ _ defined _ made =>
      intro r' hr'
      obtain ⟨r₀, hr₀, rfl⟩ := List.mem_map.mp hr'
      split
      · -- The struct is the one that was found under the name.
        rename_i hname
        have hfound : d.struct? r₀.name = some r₀ := find?_name_of_mem hnames hr₀
        rw [hname, defined] at hfound
        cases hfound
        exact (hd r hr₀).push made
      · exact hd r₀ hr₀
  | _ => exact hd

/-- A change of a level keeps elements consistent. -/
theorem Changes.elements (h : a.Changes p path d d') (hp : s.placeAt? p.path = some p)
    (hd : ∀ e ∈ d.elements, e.Consistent s path) : ∀ e ∈ d'.elements, e.Consistent s path := by
  cases h with
  | @addElement name =>
      have hempty : ElementDef.Consistent s p.path { name } :=
        ElementDef.consistent_of_no_entries rfl rfl
      exact List.forall_mem_append.mpr ⟨hd, List.forall_mem_singleton.mpr hempty⟩
  | content at_place defined changed =>
      intro e he
      obtain ⟨e₀, he₀, rfl⟩ := List.mem_map.mp he
      split
      · exact changed.consistent hp (by rw [at_place]; rfl) (hd _ (mem_of_find?_name defined).1)
      · exact hd e₀ he₀
  | _ => exact hd

/-- A change of a level keeps it consistent. -/
theorem Changes.consistent (h : a.Changes p path d d') (hp : s.placeAt? p.path = some p)
    (hd : d.Consistent s path) : d'.Consistent s path where
  names := fun category => h.nodup_names (hd.names category)
  valueTypes := h.valueTypes hd.valueTypes
  structs := h.structs (hd.names .struct) hd.structs
  elements := h.elements hp hd.elements

end Action

/-! ## Whole runs -/

namespace Scope

variable {s t : Schema} {path : Path} {d : Scope}

theorem consistent_empty : Scope.Consistent s path {} := by
  refine ⟨fun category => ?_, by simp, by simp, by simp⟩
  cases category <;> exact List.nodup_nil

/-- A level stays consistent while definitions are added elsewhere. -/
theorem Consistent.mono (h : d.Consistent s path)
    (hst : ∀ path category name, s.Defines path category name → t.Defines path category name) :
    d.Consistent t path :=
  ⟨h.names, h.valueTypes, h.structs, fun e he => (h.elements e he).mono hst⟩

/-- What is inside the elements of a scope does not count for the scope. -/
theorem consistent_of_shallow (h : d.shallow.Consistent s path) : d.Consistent s path where
  names := fun category => d.names_shallow category ▸ h.names category
  valueTypes := h.valueTypes
  structs := h.structs
  elements := fun e he =>
    have hshallow := h.elements (e.withScope {}) (List.mem_map_of_mem he)
    ⟨hshallow.attributeNames, hshallow.elementNames, hshallow.attributes, hshallow.elements⟩

end Scope

namespace Schema

variable {s : Schema}

/-- Each scope by itself is consistent, and the root is one of the outermost elements. -/
structure LevelsConsistent (s : Schema) : Prop where
  levels : ∀ path d, s.level? path = some d → d.Consistent s path
  root : ∀ name, s.root = some name → s.Defines [] .element name

theorem levelsConsistent_empty : LevelsConsistent {} := by
  refine ⟨fun path d hd => ?_, by simp⟩
  cases path with
  | nil =>
      cases hd
      exact Scope.consistent_empty
  | cons name path =>
      obtain ⟨c, hc, -⟩ := level?_eq_some.mp hd
      have hnone : ({} : Schema).scopeAt? (name :: path) = none := Scope.inner?_empty name path
      rw [hnone] at hc
      cases hc

/-- After every run all levels are consistent. -/
theorem levelsConsistent_runAll (cs : List Command) : (runAll {} cs).LevelsConsistent := by
  refine runAll_invariant ?_ ?_ levelsConsistent_empty cs
  · intro s name hs hname
    have hdefines : ∀ path category other, s.Defines path category other →
        Defines { s with root := some name } path category other := by
      rintro path category other ⟨d, hd, hmem⟩
      exact ⟨d, by rwa [scopeAt?_withRoot], hmem⟩
    refine ⟨fun path d hd => ?_, fun other hother => ?_⟩
    · rw [level?, scopeAt?_withRoot] at hd
      exact (hs.levels path d hd).mono hdefines
    · cases hother
      exact ⟨s.definitions, rfl, hname⟩
  · intro s t p a path d d' hs hp hchanges hchanged
    have hdefines : ∀ path category name, s.Defines path category name →
        t.Defines path category name :=
      fun _ category _ => hchanged.defines (hchanges.names_subset category)
    refine ⟨fun other e he => ?_, fun name hname => ?_⟩
    · rcases hchanged.level?_cases he with ⟨rfl, rfl⟩ | hsame | rfl
      · exact (hchanges.consistent hp (hs.levels _ d hchanged.before)).mono hdefines
      · exact (hs.levels other e hsame).mono hdefines
      · exact Scope.consistent_empty
    · rw [hchanged.root] at hname
      exact hdefines _ _ _ (hs.root name hname)

/-- Where levels are consistent, elements of one scope have different names. -/
theorem LevelsConsistent.elementsApart (h : s.LevelsConsistent) : s.ElementsApart := by
  intro path d hd
  have hlevel := h.levels path d.shallow (level?_eq_some.mpr ⟨d, hd, rfl⟩)
  rw [← Scope.names_shallow]
  exact hlevel.names .element

/-- A schema with consistent levels is consistent. -/
theorem LevelsConsistent.consistent (h : s.LevelsConsistent) : s.Consistent where
  scopes := by
    intro path d hd
    have hscope := scopeAt?_of_mem_scopes h.elementsApart hd
    exact Scope.consistent_of_shallow (h.levels path _ (level?_eq_some.mpr ⟨d, hscope, rfl⟩))
  root := by
    intro name hname
    obtain ⟨d, hd, hmem⟩ := h.root name hname
    cases hd
    exact hmem

/-- After every run, whether its commands succeed or fail, the schema is consistent, and in every
struct the required values are the first ones. -/
theorem runAll_consistent (cs : List Command) :
    (runAll {} cs).Consistent ∧ ∀ path r, (path, r) ∈ (runAll {} cs).allStructs →
      ∀ i v, r.values[i]? = some v → (v.optional = false ↔ i < r.requiredCount) := by
  have hconsistent := (levelsConsistent_runAll cs).consistent
  refine ⟨hconsistent, fun path r hr i v hi => ?_⟩
  obtain ⟨d, hd, hmem⟩ := mem_allStructs.mp hr
  exact ((hconsistent.scopes path d hd).structs r hmem).required_iff hi

end Schema

end SmlSchema
