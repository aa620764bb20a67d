import SmlSchema.Proofs.Schema.References

/-! # Names in the finished schema

References are found while the scopes are being filled. A scope has all its value types, structs and
attributes before anything inside it is read, so that these names stand for the same definitions in
the finished schema. With elements it is different: an element is read when those after it in the
scope around it are still to come. A child element is found again unless such a later element has
its name and is nearer.
-/

namespace SmlSchema

/-- In a list without repetitions, what comes after the last item of a part at the front is not in
that part. -/
theorem pair_sublist_iff {xs ys : List α} {a b : α} (hys : ys.Nodup) (hlast : xs.getLast? = some a)
    (hxs : xs <+: ys) : [a, b].Sublist ys ↔ b ∈ ys ∧ b ∉ xs := by
  obtain ⟨front, rfl⟩ := List.getLast?_eq_some_iff.mp hlast
  obtain ⟨rest, rfl⟩ := hxs
  obtain ⟨hfront, -, hrest⟩ := List.nodup_append.mp hys
  have ha : a ∉ front := fun ha => (List.nodup_append.mp hfront).2.2 a ha a (by simp) rfl
  constructor
  · intro h
    refine ⟨h.subset (by simp), fun hb => ?_⟩
    obtain ⟨left, right, heq, hleft, hright⟩ := List.cons_sublist_iff.mp h
    -- The left part holds the last item, hence all of the front.
    have hsub : front ++ [a] <+: left := by
      have hwhole : front ++ [a] <+: left ++ right := ⟨rest, heq⟩
      rcases List.prefix_or_prefix_of_prefix hwhole (List.prefix_append left right) with hl | hl
      · exact hl
      · rcases List.prefix_concat_iff.mp hl with rfl | hl
        · exact List.prefix_refl _
        · exact absurd (hl.subset hleft) ha
    rw [heq] at hys
    exact (List.nodup_append.mp hys).2.2 b (hsub.subset hb) b
      (List.singleton_sublist.mp hright) rfl
  · rintro ⟨hb, hnot⟩
    have hmem : b ∈ rest := (List.mem_append.mp hb).resolve_left hnot
    rw [List.append_assoc]
    exact ((List.singleton_sublist.mpr hmem).cons_cons a).trans (List.sublist_append_right front _)

namespace Place

/-- What the scope itself has is found there. -/
theorem nearest?_of_scope {f : Scope → Option α} {p : Place} {a : α} (h : f p.scope = some a) :
    p.nearest? f = some (p, a) := by
  cases p with
  | top s => exact congrArg (Option.map _) h
  | within outer name s =>
      rw [nearest?]
      simp only [show f s = some a from h]

/-- What the scope itself does not have is looked for in the scope around. -/
theorem nearest?_of_outer {f : Scope → Option α} {outer : Place} {name : String} {s : Scope}
    (h : f s = none) : (within outer name s).nearest? f = outer.nearest? f := by
  rw [nearest?, h]

/-- The path of a scope around is the end of the path. -/
theorem suffix_of_mem_chain {p q : Place} (h : q ∈ p.chain) : q.path <:+ p.path := by
  induction p with
  | top s =>
      obtain rfl := List.mem_singleton.mp h
      exact List.suffix_refl _
  | within outer name s ih =>
      rcases List.mem_cons.mp h with rfl | h
      · exact List.suffix_refl _
      · exact (ih h).trans (List.suffix_cons name _)

/-- What the scope itself does not have is found further outside. -/
theorem length_path_lt {f : Scope → Option α} {p q : Place} {a : α}
    (h : p.nearest? f = some (q, a)) (hnone : f p.scope = none) :
    q.path.length < p.path.length := by
  cases p with
  | top s =>
      rw [nearest?, show f s = none from hnone] at h
      cases h
  | within outer name s =>
      rw [nearest?_of_outer (show f s = none from hnone)] at h
      exact Nat.lt_succ_of_le (suffix_of_mem_chain (mem_chain_of_nearest? h)).length_le

end Place

/-! ## Finished places -/

namespace Schema

variable {s : Schema} {path outer : Path} {name : String} {p q : Place}

/-- The scope at a path with the scopes around it. -/
def placeAt? (s : Schema) : Path → Option Place
  | [] => some (.top s.definitions)
  | name :: outer =>
    (s.placeAt? outer).bind fun p => (p.scope.element? name).map fun e => .within p name e.scope

/-- A place inside is entered through an element of the place around. -/
theorem placeAt?_cons (h : s.placeAt? (name :: outer) = some p) :
    ∃ q e, s.placeAt? outer = some q ∧ q.scope.element? name = some e ∧
      p = .within q name e.scope := by
  obtain ⟨q, hq, hp⟩ := Option.bind_eq_some_iff.mp h
  obtain ⟨e, he, rfl⟩ := Option.map_eq_some_iff.mp hp
  exact ⟨q, e, hq, he, rfl⟩

/-- The place at a path has this path. -/
theorem path_of_placeAt? (h : s.placeAt? path = some p) : p.path = path := by
  induction path generalizing p with
  | nil =>
      cases h
      rfl
  | cons name outer ih =>
      obtain ⟨q, e, hq, -, rfl⟩ := placeAt?_cons h
      exact congrArg (name :: ·) (ih hq)

/-- The scope at a path is that of the place at the path. -/
theorem scopeAt?_eq_placeAt? (s : Schema) (path : Path) :
    s.scopeAt? path = (s.placeAt? path).map (·.scope) := by
  induction path with
  | nil => rfl
  | cons name outer ih =>
      rw [scopeAt?, ih, placeAt?]
      cases s.placeAt? outer with
      | none => rfl
      | some p =>
          rw [Option.map_some, Option.bind_some, Option.bind_some, Option.map_map]
          rfl

theorem scopeAt?_of_placeAt? (h : s.placeAt? path = some p) : s.scopeAt? path = some p.scope := by
  rw [scopeAt?_eq_placeAt?, h, Option.map_some]

theorem exists_placeAt? {d : Scope} (h : s.scopeAt? path = some d) :
    ∃ p, s.placeAt? path = some p ∧ p.scope = d := by
  rw [scopeAt?_eq_placeAt?] at h
  exact Option.map_eq_some_iff.mp h

/-- The places around a finished one are finished. -/
theorem placeAt?_of_mem_chain (h : s.placeAt? path = some p) (hq : q ∈ p.chain) :
    s.placeAt? q.path = some q := by
  induction path generalizing p with
  | nil =>
      cases h
      rw [List.mem_singleton.mp hq]
      rfl
  | cons name outer ih =>
      obtain ⟨r, e, hr, -, rfl⟩ := placeAt?_cons h
      rcases List.mem_cons.mp hq with rfl | hq
      · rw [path_of_placeAt? h, h]
      · exact ih hr hq

/-- The place at a path is reached by entering the elements of the path from the outside. -/
theorem place_of_placeAt? (h : s.placeAt? path = some p) : s.place path.reverse = .ok p := by
  induction path generalizing p with
  | nil =>
      cases h
      rfl
  | cons name outer ih =>
      obtain ⟨q, e, hq, he, rfl⟩ := placeAt?_cons h
      have hfound : q.element? name = some (q, e) := Place.nearest?_of_scope he
      rw [place, List.reverse_cons, List.foldlM_append, ← place, ih hq, ok_bind]
      simp only [List.foldlM_cons, List.foldlM_nil, Place.enter, Place.getElement, hfound,
        Place.found, ok_bind, pure_eq_ok]

end Schema

/-! ## Value types, structs and attributes -/

/-- The base is what the place offers under its name. -/
def Place.Resolves (p : Place) (b : Base) : Prop := ∃ c, p.base? b.name = some c ∧ c.base? = some b

/-- The bases of the definitions in the scope are what the place offers under their names. -/
structure Place.LeavesResolved (p : Place) : Prop where
  structs : ∀ d ∈ p.scope.structs, ∀ v ∈ d.values, p.valueBase? v.base.name = some v.base
  attributes : ∀ a ∈ p.scope.attributes, ∃ t, a.type = some t ∧ p.Resolves t.base

/-- A defined attribute is found again under its name, and the base of one on the spot is what the
place offers. -/
def AttributeEntry.FoundAgain (s : Schema) (p : Place) : AttributeEntry → Prop
  | .defined scope name o => ∃ q a, p.getAttribute name = .ok (q, a) ∧ q.path = scope ∧
      Code.entryDefinition s (.defined scope name o) = .ok a
  | .inline a _ => ∃ t, a.type = some t ∧ p.Resolves t.base

/-- The definition of a child element is found again under its name. -/
def ElementEntry.FoundAgain (s : Schema) (p : Place) (x : ElementEntry) : Prop :=
  ∃ q e, p.getElement x.name = .ok (q, e) ∧ q.path = x.scope ∧
    s.elementAt? x.scope x.name = some e

namespace Place

/-! In what follows, `q` is a place that was seen while the schema was loaded and `p` is the
finished place at the same path. -/

section

variable {s : Schema} {p q : Place} {name : String} (hq : q.Lies s)
  (hp : s.placeAt? q.path = some p)

include hq hp

/-- The definitions other than elements have not changed since. -/
theorem leaves_finished : p.scope.leaves = q.scope.leaves := by
  obtain ⟨d, hd, heq, -⟩ := (hq q q.self_mem_chain).scope
  rw [Schema.scopeAt?_of_placeAt? hp, Option.some.injEq] at hd
  rw [hd, heq]

/-- Elements have only been added since. -/
theorem names_finished : q.scope.names .element <+: p.scope.names .element := by
  obtain ⟨d, hd, -, hnames⟩ := (hq q q.self_mem_chain).scope
  rw [Schema.scopeAt?_of_placeAt? hp, Option.some.injEq] at hd
  rwa [hd]

/-- Lookups that do not ask for elements find the same. -/
theorem nearest?_finished {f : Scope → Option α}
    (hf : ∀ d e : Scope, d.leaves = e.leaves → f d = f e) :
    (p.nearest? f).map (fun r => (r.1.path, r.2)) =
      (q.nearest? f).map fun r => (r.1.path, r.2) := by
  induction q generalizing p with
  | top t =>
      have hleaves := hf _ _ (leaves_finished hq hp)
      cases hp
      change f s.definitions = f t at hleaves
      rw [nearest?, nearest?, hleaves]
      cases f t <;> rfl
  | within outer inner t ih =>
      have hleaves := hf _ _ (leaves_finished hq hp)
      obtain ⟨r, e, hr, -, rfl⟩ := Schema.placeAt?_cons hp
      change f e.scope = f t at hleaves
      have houter : outer.Lies s :=
        hq.of_mem_chain (List.mem_cons_of_mem _ outer.self_mem_chain)
      rw [nearest?, nearest?, hleaves]
      cases f t with
      | none => exact ih houter hr
      | some a =>
          simp only [Option.map_some, Place.path, Schema.path_of_placeAt? hr]

/-- A name still stands for the same type of single values. -/
theorem valueBase?_finished (name : String) : p.valueBase? name = q.valueBase? name := by
  refine valueBase?_congr (nearest?_finished hq hp fun d e h => ?_)
  rw [Scope.valueType?, Scope.valueType?, (Scope.leaves_inj h).1]

/-- A name still stands for the same base. -/
theorem base?_finished (name : String) : p.base? name = q.base? name := by
  refine base?_congr (nearest?_finished hq hp fun d e h => ?_)
    (nearest?_finished hq hp fun d e h => ?_)
  · rw [Scope.valueType?, Scope.valueType?, (Scope.leaves_inj h).1]
  · rw [Scope.struct?, Scope.struct?, (Scope.leaves_inj h).2.1]

/-- The base of a type is found again in the finished schema. -/
theorem resolves_finished {t : DataType} (h : t.WellFormed q) : p.Resolves t.base := by
  obtain ⟨name, c, hc, -, hmake, -⟩ := DataType.read_eq_ok h.read_text
  have hbase := (DataType.make_eq_ok hmake).1
  refine ⟨c, ?_, hbase⟩
  rw [base?_finished hq hp]
  exact (base?_name hc hbase).1

theorem leavesResolved_finished : p.LeavesResolved := by
  have hwell := (hq q q.self_mem_chain).wellFormed
  obtain ⟨-, hstructs, hattributes⟩ := Scope.leaves_inj (leaves_finished hq hp)
  constructor
  · intro d hd v hv
    rw [hstructs] at hd
    have hread := ((hwell.structs d hd).values v hv).read_typeText
    obtain ⟨cs, -, hbase⟩ := Loader.readValueType_eq_ok.mp hread
    rw [valueBase?_finished hq hp]
    exact (valueBase?_name hbase).1
  · intro a ha
    rw [hattributes] at ha
    obtain ⟨t, ht, htype⟩ := (hwell.attributes a ha).type
    exact ⟨t, ht, resolves_finished hq hp htype⟩

/-- An attribute of the content is found again in the finished schema. -/
theorem attributeEntry_finished {x : AttributeEntry} (h : x.WellFormed q) : x.FoundAgain s p := by
  cases h with
  | @defined r a name o kept word found =>
      have hlookup := nearest?_finished hq hp (f := (·.attribute? name)) fun d e h => by
        rw [Scope.attribute?, Scope.attribute?, (Scope.leaves_inj h).2.2]
      rw [show q.nearest? (·.attribute? name) = some (r, a) from found] at hlookup
      obtain ⟨⟨r', a'⟩, hr', heq⟩ := Option.map_eq_some_iff.mp hlookup
      obtain ⟨hpath, rfl⟩ := Prod.mk.inj heq
      have hscope := Schema.scopeAt?_of_placeAt?
        (Schema.placeAt?_of_mem_chain hp (mem_chain_of_nearest? hr'))
      have hattribute : r'.scope.attribute? name = some a' := nearest?_eq_some hr'
      refine ⟨r', a', ?_, hpath, ?_⟩
      · rw [getAttribute, attribute?, hr']
        rfl
      · rw [← show r'.path = r.path from hpath]
        simp only [Code.entryDefinition, hscope, Option.bind_some, hattribute]
  | inline definition word =>
      obtain ⟨t, ht, htype⟩ := definition.type
      exact ⟨t, ht, resolves_finished hq hp htype⟩

end

end Place

/-! ## Elements -/

namespace Place.ElementsWellFormed

variable {p : Place} {es : List ElementDef}

theorem nodup_names (h : p.ElementsWellFormed es) : (es.map (·.name)).Nodup := by
  induction h with
  | nil => exact .nil
  | @cons p e es c kept new leaves elements content_eq content rest _ ih =>
      refine List.nodup_cons.mpr ⟨fun hmem => ?_, ih⟩
      obtain ⟨f, hf, hname⟩ := List.mem_map.mp hmem
      refine rest.new_names f hf ?_
      rw [hname, scope_addElements, Scope.names, List.map_append]
      exact List.mem_append_right _ List.mem_cons_self

/-- The elements inside an element have different names. -/
theorem nodup_inner {path : Path} {d : ElementDef} (h : p.ElementsWellFormed es)
    (hd : (path, d) ∈ ElementDef.elementsOfAll p.path es) : (d.elements.map (·.name)).Nodup := by
  induction h with
  | nil => cases hd
  | @cons p e es c kept new leaves elements content_eq content rest ihElements ihRest =>
      rw [ElementDef.elementsOfAll, ElementDef.elementsFrom_eq, List.cons_append,
        List.mem_cons, List.mem_append] at hd
      rcases hd with hd | hd | hd
      · cases hd
        exact elements.nodup_names
      · exact ihElements (by rwa [path_inside])
      · exact ihRest (by rwa [path_addElements])

end Place.ElementsWellFormed

/-- In each scope of a well-formed schema elements have different names. -/
theorem Schema.WellFormed.nodup_elementNames {s : Schema} {path : Path} {d : Scope}
    (h : s.WellFormed) (hd : (path, d) ∈ s.scopes) : (d.names .element).Nodup := by
  rw [scopes_eq, List.mem_cons] at hd
  rcases hd with hd | hd
  · cases hd
    exact h.elements.nodup_names
  · obtain ⟨⟨outer, e⟩, he, heq⟩ := List.mem_map.mp hd
    cases heq
    exact h.elements.nodup_inner he

/-- A scope on the way from the path to the scope has an element of the name after that of the
path. -/
def Schema.Overtaken (s : Schema) (path scope : Path) (name : String) : Prop :=
  ∃ inner outer d, inner :: outer <:+ path ∧ scope.length < outer.length ∧
    s.scopeAt? outer = some d ∧ [inner, name].Sublist (d.names .element)

namespace Schema.Overtaken

variable {s : Schema} {path scope : Path} {inner name : String}

theorem not_nil : ¬ s.Overtaken [] scope name := by
  rintro ⟨inner, outer, d, hsuffix, -⟩
  cases List.suffix_nil.mp hsuffix

theorem not_self : ¬ s.Overtaken path path name := by
  rintro ⟨inner, outer, d, hsuffix, hlength, -⟩
  have hle := hsuffix.length_le
  rw [List.length_cons] at hle
  omega

/-- A name is overtaken in the next scope inwards, or it was so before. -/
theorem cons_iff {d : Scope} (hd : s.scopeAt? path = some d) :
    s.Overtaken (inner :: path) scope name ↔
      (scope.length < path.length ∧ [inner, name].Sublist (d.names .element)) ∨
        s.Overtaken path scope name := by
  constructor
  · rintro ⟨inner', outer, d', hsuffix, hlength, hd', hlater⟩
    rcases List.suffix_cons_iff.mp hsuffix with heq | hsuffix
    · cases heq
      cases hd.symm.trans hd'
      exact .inl ⟨hlength, hlater⟩
    · exact .inr ⟨inner', outer, d', hsuffix, hlength, hd', hlater⟩
  · rintro (⟨hlength, hlater⟩ | ⟨inner', outer, d', hsuffix, hlength, hd', hlater⟩)
    · exact ⟨inner, path, d, List.suffix_refl _, hlength, hd, hlater⟩
    · exact ⟨inner', outer, d', hsuffix.trans (List.suffix_cons inner path), hlength, hd', hlater⟩

end Schema.Overtaken

namespace Place

variable {s : Schema} {p q r : Place} {name : String} {f : ElementDef}

/-- What the scope has when it is seen first, it has in the end. -/
theorem element?_of_mem (hq : q.Lies s) (hp : s.placeAt? q.path = some p)
    (hname : name ∈ q.scope.names .element) :
    ∃ e, p.element? name = some (p, e) ∧ p.path = q.path := by
  obtain ⟨e, he⟩ := Scope.exists_element?.mpr ((names_finished hq hp).subset hname)
  exact ⟨e, nearest?_of_scope he, Schema.path_of_placeAt? hp⟩

/-- An element is overtaken from inside a scope if the scope has got the name since then, or from
the scope. -/
theorem overtaken_within {outer : Place} {inner : String} {t : Scope} {scope : Path}
    (hs : s.WellFormed) (hq : (within outer inner t).Lies s)
    (hp : s.placeAt? outer.path = some p) :
    s.Overtaken (inner :: outer.path) scope name ↔
      (scope.length < outer.path.length ∧ name ∈ p.scope.names .element ∧
        name ∉ outer.scope.names .element) ∨ s.Overtaken outer.path scope name := by
  have houter : outer.Lies s := hq.of_mem_chain (List.mem_cons_of_mem _ outer.self_mem_chain)
  have hscope := Schema.scopeAt?_of_placeAt? hp
  have hnodup := hs.nodup_elementNames (Schema.mem_scopes_of_scopeAt? hscope)
  have hnewest := (hq _ (self_mem_chain _)).newest
  rw [Schema.Overtaken.cons_iff hscope, pair_sublist_iff hnodup hnewest (names_finished houter hp)]

/-- An element that was found from a scope is found again at the same path if and only if none has
overtaken it. The scope has the name if it will ever have it. -/
theorem element?_finished (hs : s.WellFormed) (hq : q.Lies s) (hp : s.placeAt? q.path = some p)
    (hcomplete : name ∈ p.scope.names .element → name ∈ q.scope.names .element)
    (hfound : q.element? name = some (r, f)) :
    (∃ r' e, p.element? name = some (r', e) ∧ r'.path = r.path) ↔
      ¬ s.Overtaken q.path r.path name := by
  -- From the inside to the outside: a scope that has the name ends the search in both places.
  induction q generalizing p with
  | top t =>
      have hname : name ∈ t.names .element := by
        by_contra hnot
        exact absurd (length_path_lt hfound (Scope.element?_eq_none.mpr hnot)) (Nat.not_lt_zero _)
      obtain ⟨e, he⟩ := Scope.exists_element?.mpr hname
      cases (nearest?_of_scope he).symm.trans hfound
      obtain ⟨e', he', hpath⟩ := element?_of_mem hq hp hname
      exact iff_of_true ⟨p, e', he', hpath⟩ Schema.Overtaken.not_nil
  | within outer inner t ih =>
      by_cases hname : name ∈ t.names .element
      · obtain ⟨e, he⟩ := Scope.exists_element?.mpr hname
        cases (nearest?_of_scope he).symm.trans hfound
        obtain ⟨e', he', hpath⟩ := element?_of_mem hq hp hname
        exact iff_of_true ⟨p, e', he', hpath⟩ Schema.Overtaken.not_self
      · have hnot := fun h => hname (hcomplete h)
        have houter : outer.Lies s :=
          hq.of_mem_chain (List.mem_cons_of_mem _ outer.self_mem_chain)
        obtain ⟨p', e, hp', -, rfl⟩ := Schema.placeAt?_cons hp
        have hfound' : outer.element? name = some (r, f) := by
          rw [← hfound]
          exact (nearest?_of_outer (Scope.element?_eq_none.mpr hname)).symm
        have hsearch : element? (.within p' inner e.scope) name = p'.element? name :=
          nearest?_of_outer (Scope.element?_eq_none.mpr hnot)
        rw [hsearch, Place.path, overtaken_within hs hq hp', not_or]
        by_cases hnew : name ∈ p'.scope.names .element ∧ name ∉ outer.scope.names .element
        · have hlength := length_path_lt hfound' (Scope.element?_eq_none.mpr hnew.2)
          obtain ⟨g, hg⟩ := Scope.exists_element?.mpr hnew.1
          refine iff_of_false ?_ fun h => h.1 ⟨hlength, hnew⟩
          rintro ⟨r', e', hr', hpath⟩
          cases (nearest?_of_scope hg).symm.trans hr'
          rw [← hpath, Schema.path_of_placeAt? hp'] at hlength
          exact Nat.lt_irrefl _ hlength
        · have hiff := ih houter hp' (fun h => by_contra fun hnot => hnew ⟨h, hnot⟩) hfound'
          exact hiff.trans ⟨fun h => ⟨fun h' => hnew h'.2, h⟩, fun h => h.2⟩

end Place

namespace Schema

variable {s : Schema}

/-- A child element is found again exactly if its name is not overtaken. -/
theorem WellFormed.elementEntry_finished (hs : s.WellFormed) {p q : Place} (hq : q.Lies s)
    (hp : s.placeAt? q.path = some p) (hscope : q.scope = p.scope) {x : ElementEntry}
    (h : x.WellFormed q) : x.FoundAgain s p ↔ ¬ s.Overtaken q.path x.scope x.name := by
  cases h with
  | @mk r f name o kept word found =>
      rw [← Place.element?_finished hs hq hp (fun h => by rwa [hscope]) found]
      constructor
      · rintro ⟨r', e, hr', hpath, -⟩
        exact ⟨r', e, Place.found_eq_ok.mp hr', hpath⟩
      · rintro ⟨r', e, hr', hpath⟩
        have hfinished := scopeAt?_of_placeAt?
          (placeAt?_of_mem_chain hp (Place.mem_chain_of_nearest? hr'))
        refine ⟨r', e, Place.found_eq_ok.mpr hr', hpath, ?_⟩
        rw [elementAt?, ← show r'.path = r.path from hpath, hfinished, Option.bind_some]
        exact Place.nearest?_eq_some hr'

/-- In every scope of a loaded schema, the bases of struct values and of attributes are what their
names stand for in the finished schema. In the content of every element, this holds for attributes
as well, and it holds for a child element if and only if no element has overtaken it. -/
theorem foundAgain_of_parse {text : String} (h : (parse text).result = .ok s) :
    (∀ path d, (path, d) ∈ s.scopes → ∃ p, s.place path.reverse = .ok p ∧ p.path = path ∧
      p.scope = d ∧ p.LeavesResolved) ∧
    ∀ path e, (path, e) ∈ s.allElements → ∃ p, s.place (e.name :: path).reverse = .ok p ∧
      p.path = e.name :: path ∧ p.scope = e.scope ∧
      (∀ x ∈ e.attributeEntries, x.FoundAgain s p) ∧
      ∀ x ∈ e.elementEntries,
        (x.FoundAgain s p ↔ ¬ s.Overtaken (e.name :: path) x.scope x.name) := by
  have hs := wellFormed_of_parse h
  constructor
  · intro path d hd
    obtain ⟨p, hp, hscope⟩ := exists_placeAt? (hs.scopeAt?_of_mem hd)
    obtain ⟨q, rfl, -, hlies⟩ := hs.placed_scope hd
    exact ⟨p, place_of_placeAt? hp, path_of_placeAt? hp, hscope,
      Place.leavesResolved_finished hlies hp⟩
  · intro path e he
    obtain ⟨p, hp, hscope⟩ :=
      exists_placeAt? (hs.scopeAt?_of_mem (mem_scopes_of_mem_allElements he))
    obtain ⟨q, c, hpath, hqscope, hlies, hcontent, hc⟩ := hs.placed_element he
    rw [← hpath] at hp ⊢
    refine ⟨p, place_of_placeAt? hp, path_of_placeAt? hp, hscope, ?_⟩
    cases hc with
    | unordered _ _ attributes_wellFormed elements_wellFormed =>
        simp only [ElementDef.attributeEntries, ElementDef.elementEntries, hcontent]
        exact ⟨fun x hx => Place.attributeEntry_finished hlies hp (attributes_wellFormed x hx),
          fun x hx => hs.elementEntry_finished hlies hp (hqscope.trans hscope.symm)
            (elements_wellFormed x hx)⟩

/-- The element `C` refers to an element `B` before the scope of `A` has one of its own. -/
def overtakenText : String :=
  "Schema\nElement\nName B\nUnorderedContent\nEnd\nEnd\nElement\nName A\nDefinitions\nElement\n" ++
    "Name C\nUnorderedContent\nElement B Optional\nEnd\nEnd\nElement\nName B\n" ++
    "UnorderedContent\nEnd\nEnd\nEnd\nUnorderedContent\nElement C Optional\nEnd\nEnd\n" ++
    "RootElement A\nEnd"

def overtakenLeaf : ElementDef := { name := "B", content := some (.unordered [] []) }

def overtakenElement : ElementDef where
  name := "C"
  content := some (.unordered [] [⟨[], "B", .optional⟩])

def overtakenRoot : ElementDef where
  name := "A"
  elements := [overtakenElement, overtakenLeaf]
  content := some (.unordered [] [⟨["A"], "C", .optional⟩])

def overtakenSchema : Schema where
  definitions := { elements := [overtakenLeaf, overtakenRoot] }
  root := some "A"

theorem parse_overtakenText : (parse overtakenText).result = .ok overtakenSchema :=
  parse_of_toList (Text.toList_append_eq (Text.toList_append_eq
    (Text.toList_append_eq String.toList_ofList String.toList_ofList)
    String.toList_ofList) String.toList_ofList) (by decide +kernel)

/-- The root finds its child again, and the child does not find its own. -/
theorem foundAgain_of_parse_overtaken :
    (parse overtakenText).result = .ok overtakenSchema ∧
      (∃ p, overtakenSchema.place ["A"] = .ok p ∧ p.scope = overtakenRoot.scope ∧
        ElementEntry.FoundAgain overtakenSchema p ⟨["A"], "C", .optional⟩) ∧
      ∃ p, overtakenSchema.place ["A", "C"] = .ok p ∧ p.scope = overtakenElement.scope ∧
        ¬ ElementEntry.FoundAgain overtakenSchema p ⟨[], "B", .optional⟩ := by
  obtain ⟨-, hagain⟩ := foundAgain_of_parse parse_overtakenText
  refine ⟨parse_overtakenText, ?_, ?_⟩
  · obtain ⟨p, hp, -, hscope, -, hentries⟩ := hagain [] overtakenRoot
      (List.mem_cons_of_mem _ List.mem_cons_self)
    exact ⟨p, hp, hscope, (hentries _ List.mem_cons_self).mpr Overtaken.not_self⟩
  · obtain ⟨p, hp, -, hscope, -, hentries⟩ := hagain ["A"] overtakenElement
      (List.mem_cons_of_mem _ (List.mem_cons_of_mem _ List.mem_cons_self))
    refine ⟨p, hp, hscope, fun h => (hentries _ List.mem_cons_self).mp h ?_⟩
    exact ⟨"C", ["A"], overtakenRoot.scope, List.suffix_refl _, by decide, rfl, by decide⟩

/-- From the scope of `C`, the name `B` now stands for the element in the scope of `A`. -/
theorem not_foundAgain_overtaken :
    (parse overtakenText).result = .ok overtakenSchema ∧
      (["A"], overtakenElement) ∈ overtakenSchema.allElements ∧
      ∃ p, overtakenSchema.place ["A", "C"] = .ok p ∧ p.scope = overtakenElement.scope ∧
        ∃ x ∈ overtakenElement.elementEntries, ¬ x.FoundAgain overtakenSchema p := by
  refine ⟨parse_overtakenText, List.mem_cons_of_mem _ (List.mem_cons_of_mem _ List.mem_cons_self),
    .within (.within (.top overtakenSchema.definitions) "A" overtakenRoot.scope) "C"
      overtakenElement.scope, rfl, rfl, _, List.mem_cons_self, ?_⟩
  rintro ⟨q, e, hq, hpath, -⟩
  have hfound : some (Place.within (.top overtakenSchema.definitions) "A" overtakenRoot.scope,
    overtakenLeaf) = some (q, e) := Place.found_eq_ok.mp hq
  cases hfound
  cases hpath

end Schema

end SmlSchema
