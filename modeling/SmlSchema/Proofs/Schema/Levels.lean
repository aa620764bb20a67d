import SmlSchema.Proofs.Schema.Atomicity
import SmlSchema.Proofs.Schema.Scoping

/-! # One scope changes at a time

A command rebuilds the tree of scopes around the scope that it changes. Looked at scope by scope,
this is a change at one path: what every other scope holds by itself stays, and the scope of a new
element is empty.
-/

namespace SmlSchema

section

variable {α : Type} {k : α → String} {f : α → α} {name : String}
  (hf : ∀ x, k x = name → k (f x) = name)

include hf

theorem change_key (x : α) : k (if k x = name then f x else x) = k x := by
  split
  · rename_i hx
    rw [hf x hx, hx]
  · rfl

/-- Changing what has a name keeps all names, -/
theorem map_change_key (xs : List α) :
    (xs.map fun x => if k x = name then f x else x).map k = xs.map k := by
  rw [List.map_map]
  exact List.map_congr_left fun x _ => change_key hf x

/-- and under each name the same is found as before, or the same with its change. -/
theorem find?_change (xs : List α) (other : String) :
    (xs.map fun x => if k x = name then f x else x).find? (k · == other) =
      (xs.find? (k · == other)).map fun x => if k x = name then f x else x := by
  rw [List.find?_map]
  simp only [Function.comp_def, change_key hf]

end

namespace Scope

variable {d : Scope} {name other : String}

/-- The scope without the scopes inside it: the elements keep their names and contents. -/
def shallow (d : Scope) : Scope := { d with elements := d.elements.map (·.withScope {}) }

@[simp] theorem names_shallow (d : Scope) (category : Category) :
    d.shallow.names category = d.names category := by
  cases category with
  | element => exact List.map_map
  | _ => rfl

theorem element?_shallow (d : Scope) (name : String) :
    d.shallow.element? name = (d.element? name).map (·.withScope {}) := List.find?_map

/-- Nothing but the scopes inside an element has changed. -/
theorem shallow_modifyElement_withScope (d : Scope) (name : String) (t : Scope) :
    (d.modifyElement name (·.withScope t)).shallow = d.shallow := by
  unfold shallow modifyElement
  dsimp only
  rw [List.map_map]
  congr 1
  refine List.map_congr_left fun e _ => ?_
  dsimp only [Function.comp_apply]
  split <;> rfl

theorem shallow_modifyElement (d : Scope) (name : String) (e : ElementDef) :
    (d.modifyElement name fun _ => e).shallow =
      d.shallow.modifyElement name fun _ => e.withScope {} := by
  unfold shallow modifyElement
  dsimp only
  rw [List.map_map, List.map_map]
  congr 1
  refine List.map_congr_left fun f _ => ?_
  dsimp only [Function.comp_apply]
  change _ = if f.name = name then _ else _
  split <;> rfl

/-- Changing an element keeps the others. -/
theorem element?_modifyElement {f : ElementDef → ElementDef}
    (hf : ∀ e, e.name = name → (f e).name = name) :
    (d.modifyElement name f).element? other =
      (d.element? other).map fun e => if e.name = name then f e else e :=
  find?_change hf d.elements other

/-- Changing a struct keeps the others. -/
theorem struct?_modifyStruct {f : Struct → Struct} (hf : ∀ r, r.name = name → (f r).name = name) :
    (d.modifyStruct name f).struct? other =
      (d.struct? other).map fun r => if r.name = name then f r else r :=
  find?_change hf d.structs other

section Changed

variable {category : Category}

theorem names_modifyStruct {f : Struct → Struct} (hf : ∀ r, r.name = name → (f r).name = name) :
    (d.modifyStruct name f).names category = d.names category := by
  cases category with
  | struct => exact map_change_key hf d.structs
  | _ => rfl

theorem names_modifyAttribute {f : AttributeDef → AttributeDef}
    (hf : ∀ a, a.name = name → (f a).name = name) :
    (d.modifyAttribute name f).names category = d.names category := by
  cases category with
  | «attribute» => exact map_change_key hf d.attributes
  | _ => rfl

/-- Changing an element keeps all names. -/
theorem names_modifyElement {f : ElementDef → ElementDef}
    (hf : ∀ e, e.name = name → (f e).name = name) :
    (d.modifyElement name f).names category = d.names category := by
  cases category with
  | element => exact map_change_key hf d.elements
  | _ => rfl

end Changed

/-- The scope at a path that starts in this scope. -/
def inner? (d : Scope) (path : Path) : Option Scope := ({ definitions := d } : Schema).scopeAt? path

theorem inner?_nil (d : Scope) : d.inner? [] = some d := rfl

theorem inner?_cons (d : Scope) (name : String) (path : Path) :
    d.inner? (name :: path) = ((d.inner? path).bind (·.element? name)).map (·.scope) := rfl

/-- The outermost step of a path comes first. -/
theorem inner?_concat (d : Scope) (path : Path) (name : String) :
    d.inner? (path ++ [name]) = ((d.element? name).map (·.scope)).bind (·.inner? path) := by
  induction path with
  | nil =>
      cases h : d.element? name with
      | none => simp [inner?_cons, inner?_nil, h]
      | some e => simp [inner?_cons, inner?_nil, h]
  | cons other path ih =>
      rw [List.cons_append, inner?_cons, ih]
      cases d.element? name with
      | none => rfl
      | some e => rfl

theorem inner?_empty (name : String) (path : Path) : inner? {} (name :: path) = none := by
  induction path generalizing name with
  | nil => rfl
  | cons other path ih =>
      rw [inner?_cons, ih other]
      rfl

end Scope

/-- The elements of each scope have different names. -/
def Schema.ElementsApart (s : Schema) : Prop :=
  ∀ path d, s.scopeAt? path = some d → (d.names .element).Nodup

section Paths

variable {s : Schema} {path : Path} {f : ElementDef}

mutual

/-- Where names are different, an element inside another one is found at its path. -/
theorem ElementDef.scopeAt?_of_mem_elementsFrom (hs : s.ElementsApart) (outer : Path) :
    ∀ e : ElementDef, s.scopeAt? (e.name :: outer) = some e.scope →
      (path, f) ∈ e.elementsFrom outer → s.scopeAt? (f.name :: path) = some f.scope
  | ⟨name, valueTypes, structs, attributes, elements, content⟩, he, hf => by
      rw [elementsFrom, List.mem_cons] at hf
      rcases hf with hf | hf
      · cases hf
        exact he
      · exact scopeAt?_of_mem_elementsOfAll hs (name :: outer) elements he (List.Subset.refl _) hf
termination_by structural e => e

/-- The scope of every element is found at its path. -/
theorem ElementDef.scopeAt?_of_mem_elementsOfAll (hs : s.ElementsApart) (outer : Path) :
    ∀ es : List ElementDef, {d : Scope} → s.scopeAt? outer = some d → es ⊆ d.elements →
      (path, f) ∈ elementsOfAll outer es → s.scopeAt? (f.name :: path) = some f.scope
  | [], _, _, _, hf => by cases hf
  | e :: es, d, hd, hsub, hf => by
      rw [elementsOfAll, List.mem_append] at hf
      rcases hf with hf | hf
      · refine scopeAt?_of_mem_elementsFrom hs outer e ?_ hf
        have he : d.element? e.name = some e :=
          find?_name_of_mem (hs outer d hd) (hsub List.mem_cons_self)
        rw [Schema.scopeAt?, hd, Option.bind_some, he, Option.map_some]
      · exact scopeAt?_of_mem_elementsOfAll hs outer es hd
          (fun _ h => hsub (List.mem_cons_of_mem _ h)) hf
termination_by structural es => es

end

/-- Where names are different, a scope is found at its path. -/
theorem Schema.scopeAt?_of_mem_scopes (hs : s.ElementsApart) {d : Scope}
    (h : (path, d) ∈ s.scopes) : s.scopeAt? path = some d := by
  rw [scopes_eq, List.mem_cons] at h
  rcases h with h | h
  · cases h
    rfl
  · obtain ⟨⟨outer, e⟩, he, heq⟩ := List.mem_map.mp h
    cases heq
    exact ElementDef.scopeAt?_of_mem_elementsOfAll hs [] s.definitions.elements rfl
      (List.Subset.refl _) he

end Paths

namespace Schema

variable {s : Schema} {p : Place} {t : Scope} {path : Path}

/-- A path that leads through another one. -/
theorem scopeAt?_append (s : Schema) (path outer : Path) :
    s.scopeAt? (path ++ outer) = (s.scopeAt? outer).bind (·.inner? path) := by
  induction path with
  | nil =>
      cases h : s.scopeAt? outer with
      | none => exact h
      | some d => exact h
  | cons name path ih =>
      rw [List.cons_append, scopeAt?, ih]
      cases s.scopeAt? outer with
      | none => rfl
      | some d => rfl

/-- The root has no part in the scopes. -/
@[simp] theorem scopeAt?_withRoot (s : Schema) (root : Option String) (path : Path) :
    ({ s with root } : Schema).scopeAt? path = s.scopeAt? path := by
  induction path with
  | nil => rfl
  | cons name path ih => rw [scopeAt?, ih, scopeAt?]

/-- What the scope at the path holds by itself. -/
def level? (s : Schema) (path : Path) : Option Scope := (s.scopeAt? path).map Scope.shallow

/-- A route leads to a place of the schema. -/
theorem placeAt?_of_place {route : List String} (h : s.place route = .ok p) :
    s.placeAt? p.path = some p := by
  refine foldlM_invariant (P := fun p => s.placeAt? p.path = some p) ?_ rfl h
  intro name _ p q hp hq
  obtain ⟨⟨r, e⟩, hfound, heq⟩ := bind_eq_ok.mp hq
  cases heq
  have hnear : p.nearest? (·.element? name) = some (r, e) := Place.found_eq_ok.mp hfound
  have hr := placeAt?_of_mem_chain hp (Place.mem_chain_of_nearest? hnear)
  have he : r.scope.element? name = some e := Place.nearest?_eq_some hnear
  rw [Place.path, placeAt?, hr, Option.bind_some, he, Option.map_some]

/-- The scope that is put at a place is found there. -/
theorem scopeAt?_replace_self (h : s.placeAt? p.path = some p) (t : Scope) :
    (s.replace p t).scopeAt? p.path = some t := by
  induction p generalizing t with
  | top d => rfl
  | within outer name d ih =>
      obtain ⟨q, e, hq, he, heq⟩ := placeAt?_cons h
      cases heq
      have hname := (mem_of_find?_name he).2
      have houter := ih hq (outer.scope.modifyElement name (·.withScope t))
      change (s.replace outer _).scopeAt? (name :: outer.path) = _
      rw [scopeAt?, houter, Option.bind_some,
        Scope.element?_modifyElement (f := (·.withScope t)) fun _ h => h, he, Option.map_some,
        Option.map_some, if_pos hname]
      rfl

/-- Scopes outside the changed one hold by themselves what they held before. -/
theorem level?_replace_outside (h : s.placeAt? p.path = some p) (t : Scope)
    (hpath : ¬ p.path <:+ path) : (s.replace p t).level? path = s.level? path := by
  induction p generalizing t with
  | top d => exact absurd path.nil_suffix hpath
  | within outer name d ih =>
      obtain ⟨q, e, hq, he, heq⟩ := placeAt?_cons h
      cases heq
      change (s.replace outer _).level? path = _
      by_cases houter : outer.path <:+ path
      · obtain ⟨inner, rfl⟩ := houter
        rw [level?, level?, scopeAt?_append, scopeAt?_append, scopeAt?_replace_self hq,
          scopeAt?_of_placeAt? hq, Option.bind_some, Option.bind_some]
        rcases List.eq_nil_or_concat inner with rfl | ⟨inner, other, rfl⟩
        · exact congrArg some (outer.scope.shallow_modifyElement_withScope name t)
        · -- The path leaves the scope around through another element.
          have hne : other ≠ name := by
            rintro rfl
            exact hpath ⟨inner, by simp [Place.path]⟩
          rw [List.concat_eq_append, Scope.inner?_concat, Scope.inner?_concat,
            Scope.element?_modifyElement (f := (·.withScope t)) fun _ h => h]
          cases hfound : outer.scope.element? other with
          | none => rfl
          | some f =>
              have hname := (mem_of_find?_name hfound).2
              rw [Option.map_some, if_neg fun hf => hne (hname.symm.trans hf)]
      · exact ih hq _ houter

/-- A level is a scope without what is inside its elements. -/
theorem level?_eq_some {d : Scope} :
    s.level? path = some d ↔ ∃ c, s.scopeAt? path = some c ∧ c.shallow = d :=
  Option.map_eq_some_iff

/-- The second schema holds `d'` at the path where the first one holds `d`. The other scopes are the
same by themselves, or new and empty. -/
structure ChangedAt (s t : Schema) (path : Path) (d d' : Scope) : Prop where
  root : t.root = s.root
  before : s.level? path = some d
  after : t.level? path = some d'
  elsewhere : ∀ other, other ≠ path →
    t.level? other = s.level? other ∨ s.level? other = none ∧ t.level? other = some {}

namespace ChangedAt

variable {t : Schema} {d d' e : Scope} {other : Path}

/-- Where the first schema has a scope, the second one has the same, but for the one change. -/
theorem kept (h : s.ChangedAt t path d d') (he : s.level? other = some e) :
    other = path ∧ e = d ∨ t.level? other = some e := by
  by_cases hpath : other = path
  · subst hpath
    exact .inl ⟨rfl, Option.some.inj (he.symm.trans h.before)⟩
  · rcases h.elsewhere other hpath with hsame | ⟨hnone, -⟩
    · exact .inr (hsame.trans he)
    · rw [hnone] at he
      cases he

/-- Where the second schema has a scope, it is the changed one, an old one or a new one. -/
theorem level?_cases (h : s.ChangedAt t path d d') (he : t.level? other = some e) :
    other = path ∧ e = d' ∨ s.level? other = some e ∨ e = {} := by
  by_cases hpath : other = path
  · subst hpath
    exact .inl ⟨rfl, Option.some.inj (he.symm.trans h.after)⟩
  · rcases h.elsewhere other hpath with hsame | ⟨-, hnew⟩
    · exact .inr (.inl (hsame.symm.trans he))
    · exact .inr (.inr (Option.some.inj (he.symm.trans hnew)))

end ChangedAt

/-- Putting a scope in place of another one is a change at one path, if the elements in it have the
scopes that they had before or are new and have empty ones. -/
theorem changedAt_replace (h : s.placeAt? p.path = some p)
    (ht : ∀ name, (t.element? name).map (·.scope) = (p.scope.element? name).map (·.scope) ∨
      p.scope.element? name = none ∧ (t.element? name).map (·.scope) = some {}) :
    s.ChangedAt (s.replace p t) p.path p.scope.shallow t.shallow where
  root := rfl
  before := by rw [level?, scopeAt?_of_placeAt? h, Option.map_some]
  after := by rw [level?, scopeAt?_replace_self h, Option.map_some]
  elsewhere := by
    intro other hother
    by_cases hinside : p.path <:+ other
    · obtain ⟨inner, rfl⟩ := hinside
      rw [level?, level?, scopeAt?_append, scopeAt?_append, scopeAt?_replace_self h,
        scopeAt?_of_placeAt? h, Option.bind_some, Option.bind_some]
      rcases List.eq_nil_or_concat inner with rfl | ⟨inner, name, rfl⟩
      · exact absurd rfl hother
      · rw [List.concat_eq_append, Scope.inner?_concat, Scope.inner?_concat]
        rcases ht name with hsame | ⟨hnone, hnew⟩
        · rw [hsame]
          exact .inl rfl
        · rw [hnone, hnew]
          cases inner with
          | nil => exact .inr ⟨rfl, rfl⟩
          | cons name inner =>
              rw [Option.bind_some, Scope.inner?_empty]
              exact .inl rfl
    · exact .inl (level?_replace_outside h t hinside)

end Schema

end SmlSchema
