import SmlSchema.Proofs.Code.Loaders

/-! # Which entry reads a node

The checks of names in the code of an element let a node pass if some entry of its kind has the name
of the node. The entries of a loaded schema have different names, but the library finds nodes
without regard to letter case. Every node is therefore found under the name of an entry, and under
one only in every element if and only if the names of the entries differ in more than letter case.
-/

namespace SmlSchema

/-- Names are told apart without letter case if and only if no name is taken for two of them. -/
theorem Text.nodup_lower_iff {xs : List α} {f : α → String} (h : (xs.map f).Nodup) :
    (xs.map fun x => lower (f x)).Nodup ↔
      ∀ name, (∃ x ∈ xs, sameName name (f x)) → ∃! x, x ∈ xs ∧ sameName name (f x) := by
  rw [List.nodup_map_iff_inj_on h.of_map]
  constructor
  · rintro hinj name ⟨x, hx, hname⟩
    refine ⟨x, ⟨hx, hname⟩, fun y ⟨hy, hname'⟩ => hinj y hy x hx ?_⟩
    exact (eq_of_beq hname').symm.trans (eq_of_beq hname)
  · intro honce x hx y hy hlower
    have hself : sameName (f x) (f x) := beq_self_eq_true _
    obtain ⟨z, -, hz⟩ := honce (f x) ⟨x, hx, hself⟩
    rw [hz x ⟨hx, hself⟩, hz y ⟨hy, beq_iff_eq.mpr hlower⟩]

namespace ElementDef

open Code

/-- The attributes of the content differ in more than the letter case of their names, and so do the
child elements. -/
def EntriesApart (d : ElementDef) : Prop :=
  (d.attributeEntries.map fun x => Text.lower x.name).Nodup ∧
    (d.elementEntries.map fun x => Text.lower x.name).Nodup

instance (d : ElementDef) : Decidable d.EntriesApart := inferInstanceAs (Decidable (_ ∧ _))

/-- Every attribute and every child element is found under the name of an entry. -/
def ReadsAll (d : ElementDef) (e : Element) : Prop :=
  (∀ a ∈ e.ownAttributes, ∃ x ∈ d.attributeEntries, a ∈ e.attributes x.name) ∧
    ∀ c ∈ e.children, ∃ x ∈ d.elementEntries, c ∈ e.elements x.name

/-- Every attribute and every child element is found under the name of exactly one entry. -/
def ReadsOnce (d : ElementDef) (e : Element) : Prop :=
  (∀ a ∈ e.ownAttributes, ∃! x, x ∈ d.attributeEntries ∧ a ∈ e.attributes x.name) ∧
    ∀ c ∈ e.children, ∃! x, x ∈ d.elementEntries ∧ c ∈ e.elements x.name

/-- The checks that stand between that of the element's own name and the new record. -/
def nameChecks (d : ElementDef) : List Statement :=
  ((elementBody d.name (d.attributeEntries.map (·.name)) (d.elementEntries.map (·.name)) []).drop
    1).take 2

/-- The checks of names let the element pass. -/
def Admits (k : Context) (d : ElementDef) (e : Element) : Prop :=
  k.runAll (elementLocals e) d.nameChecks = .ok (.next (elementLocals e))

variable {d : ElementDef} {e : Element}

/-- The checks let an element pass if and only if all its nodes have the name of an entry. -/
theorem admits_iff {types : List DeclaredType} {self : String} {n : Nat} :
    Admits ⟨types, self, perform types (n + 1)⟩ d e ↔
      (∀ c ∈ e.children, ∃ x ∈ d.elementEntries, Text.sameName c.name x.name) ∧
        ∀ a ∈ e.ownAttributes, ∃ x ∈ d.attributeEntries, Text.sameName a.name x.name := by
  have helement : (elementLocals e).lookup "element" = some (.element e) := rfl
  have hchecks := Context.decides_cons_check
    (decides_nameCheck (k := ⟨types, self, perform types (n + 1)⟩) (answers_element e) helement
      (d.elementEntries.map (·.name)))
    (Context.decides_singleton
      (decides_nameCheck (answers_attribute e) helement (d.attributeEntries.map (·.name))))
  simp only [Element.hasName_map] at hchecks
  constructor
  · intro h
    change Decides _ _ (Context.runAll _ _ d.nameChecks) at hchecks
    rw [h] at hchecks
    exact hchecks.1
  · intro h
    obtain ⟨flow, hflow, after, rfl, rfl⟩ := hchecks.exists_ok h
    exact hflow

theorem readsAll_of_admits {types : List DeclaredType} {self : String} {n : Nat}
    (h : Admits ⟨types, self, perform types (n + 1)⟩ d e) : d.ReadsAll e := by
  obtain ⟨helements, hattributes⟩ := admits_iff.mp h
  constructor
  · intro a ha
    obtain ⟨x, hx, hname⟩ := hattributes a ha
    exact ⟨x, hx, Element.mem_attributes.mpr ⟨ha, hname⟩⟩
  · intro c hc
    obtain ⟨x, hx, hname⟩ := helements c hc
    exact ⟨x, hx, Element.mem_elements.mpr ⟨hc, hname⟩⟩

/-- A node is found under those names that are its own but for letter case. -/
theorem readsOnce_iff : d.ReadsOnce e ↔
    (∀ a ∈ e.ownAttributes, ∃! x, x ∈ d.attributeEntries ∧ Text.sameName a.name x.name) ∧
      ∀ c ∈ e.children, ∃! x, x ∈ d.elementEntries ∧ Text.sameName c.name x.name := by
  refine and_congr (forall₂_congr fun a ha => ?_) (forall₂_congr fun c hc => ?_)
  · simp only [Element.mem_attributes, ha, true_and]
  · simp only [Element.mem_elements, hc, true_and]

end ElementDef

namespace Schema

open Code

variable {s : Schema} {path : Path} {d : ElementDef}

theorem WellFormed.nodup_entries (h : s.WellFormed) (hd : (path, d) ∈ s.allElements) :
    (d.attributeEntries.map (·.name)).Nodup ∧ (d.elementEntries.map (·.name)).Nodup := by
  obtain ⟨_, c, -, -, -, hcontent, hc⟩ := h.placed_element hd
  cases hc with
  | unordered attributes_nodup elements_nodup _ _ =>
      simp only [ElementDef.attributeEntries, ElementDef.elementEntries, hcontent]
      exact ⟨attributes_nodup, elements_nodup⟩

/-- In an element that passes the checks of names for an element of a loaded schema, every node is
found under the name of an entry. In all such elements every node is found under the name of exactly
one entry if and only if the names of the entries differ in more than letter case. -/
theorem readsOnce_iff_entriesApart {text : String} (h : (parse text).result = .ok s)
    (hd : (path, d) ∈ s.allElements) (types : List DeclaredType) (self : String) (n : Nat) :
    (∀ e, d.Admits ⟨types, self, perform types (n + 1)⟩ e → d.ReadsAll e) ∧
      ((∀ e, d.Admits ⟨types, self, perform types (n + 1)⟩ e → d.ReadsOnce e) ↔
        d.EntriesApart) := by
  obtain ⟨hattributes, helements⟩ := (wellFormed_of_parse h).nodup_entries hd
  refine ⟨fun e => ElementDef.readsAll_of_admits, ?_⟩
  simp only [ElementDef.admits_iff, ElementDef.readsOnce_iff, ElementDef.EntriesApart,
    Text.nodup_lower_iff hattributes, Text.nodup_lower_iff helements]
  constructor
  · -- An element with a single node shows what happens to the name of the node.
    intro honce
    constructor
    · intro name hname
      have hown : Element.ownAttributes ⟨d.name, [.attribute ⟨name, [none], nofun⟩]⟩ =
        [⟨name, [none], nofun⟩] := rfl
      have hnode := honce ⟨d.name, [.attribute ⟨name, [none], nofun⟩]⟩
      rw [hown, List.forall_mem_singleton, List.forall_mem_singleton] at hnode
      exact (hnode ⟨List.forall_mem_nil _, hname⟩).1
    · intro name hname
      have hchildren : Element.children ⟨d.name, [.element name []]⟩ = [⟨name, []⟩] := rfl
      have hnode := honce ⟨d.name, [.element name []]⟩
      rw [hchildren, List.forall_mem_singleton, List.forall_mem_singleton] at hnode
      exact (hnode ⟨hname, List.forall_mem_nil _⟩).2
  · rintro ⟨honceAttribute, honceElement⟩ e ⟨hchildren, hown⟩
    exact ⟨fun a ha => honceAttribute a.name (hown a ha),
      fun c hc => honceElement c.name (hchildren c hc)⟩

/-- The schema with the enumeration has one entry of each kind. -/
theorem readsOnce_iff_entriesApart_tree :
    (parse treeText).result = .ok treeSchema ∧ ([], treeDefinition) ∈ treeSchema.allElements ∧
      treeDefinition.EntriesApart ∧
      treeDefinition.Admits ⟨[], "A", perform [] 1⟩ treeElement ∧
      treeDefinition.ReadsOnce treeElement := by
  have hmem : ([], treeDefinition) ∈ treeSchema.allElements := List.mem_cons_self
  have hapart : treeDefinition.EntriesApart := by decide +kernel
  have hadmits : treeDefinition.Admits ⟨[], "A", perform [] 1⟩ treeElement :=
    ElementDef.admits_iff.mpr (by decide +kernel)
  have hiff := (readsOnce_iff_entriesApart parse_treeText hmem [] "A" 0).2
  exact ⟨parse_treeText, hmem, hapart, hadmits, hiff.mpr hapart treeElement hadmits⟩

/-- The content has an attribute `a` and an attribute `A`. -/
def twinText : String :=
  "Schema\nElement\nName R\nUnorderedContent\nAttribute a Optional Int\n" ++
    "Attribute A Optional Int\nEnd\nEnd\nEnd"

def twinDefinition : ElementDef where
  name := "R"
  content := some (.unordered
    [.inline ⟨"a", some ⟨.value (.predefined .int), false, none⟩⟩ .optional,
     .inline ⟨"A", some ⟨.value (.predefined .int), false, none⟩⟩ .optional] [])

/-- An attribute `A` is found under the names of both entries. -/
theorem not_readsOnce_twin :
    ∃ s, (parse twinText).result = .ok s ∧ ([], twinDefinition) ∈ s.allElements ∧
      ∃ e, twinDefinition.Admits ⟨[], "R", perform [] 1⟩ e ∧ ¬ twinDefinition.ReadsOnce e := by
  refine ⟨⟨{ elements := [twinDefinition] }, some "R"⟩, eq_ok_of_toOption (by decide +kernel),
    List.mem_cons_self, ⟨"R", [.attribute ⟨"A", [some "1"], nofun⟩]⟩,
    ElementDef.admits_iff.mpr (by decide +kernel), fun honce => ?_⟩
  obtain ⟨x, -, hx⟩ := (ElementDef.readsOnce_iff.mp honce).1 _ List.mem_cons_self
  have hlower := hx (.inline ⟨"a", some ⟨.value (.predefined .int), false, none⟩⟩ .optional)
    ⟨List.mem_cons_self, by decide +kernel⟩
  have hupper := hx (.inline ⟨"A", some ⟨.value (.predefined .int), false, none⟩⟩ .optional)
    ⟨List.mem_cons_of_mem _ List.mem_cons_self, by decide +kernel⟩
  exact absurd (hlower.trans hupper.symm) (by decide)

end Schema

end SmlSchema
