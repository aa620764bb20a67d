import SmlSchema.Proofs.Graph.Shows

/-! # Changes of a graph and of the schema that it shows

A graph that shows a schema still shows it after definitions have been made that no scope registers.
It shows the changed schema if a definition is registered in the graph and added to the schema, and
if a definition is changed in both.
-/

namespace SmlSchema.Graph

variable {g g' : Graph} {s t : Schema} {n m x : Nat} {r q : Position} {c : Category}
  {name key : String} {path : Path} {d d' : Scope}

/-! ## What is kept -/

/-- Scopes stay where they are and keep what they register, and an attribute that no scope registers
stays as it is. -/
structure Keeps (g g' : Graph) : Prop where
  position : ∀ {n r}, g.position? n = some r → g'.position? n = some r
  registers : ∀ {n c key x}, g.Registers n c key x → g'.Registers n c key x
  loose : ∀ {a v}, g.Loose a → g.attributes[a]? = some v →
    g'.Loose a ∧ g'.attributes[a]? = some v

/-- What has the number stays as it is. -/
def NodeKept (g g' : Graph) : Category → Nat → Prop
  | .valueType, x => ∀ v, g.valueTypes[x]? = some v → g'.valueTypes[x]? = some v
  | .struct, x => ∀ v, g.structs[x]? = some v → g'.structs[x]? = some v
  | .attribute, x => ∀ v, g.attributes[x]? = some v → g'.attributes[x]? = some v
  | .element, x => ∀ v, g.elements[x]? = some v → g'.elements[x]? = some v

/-- What is defined in the first graph comes first in the second one. -/
structure Begins (g g' : Graph) : Prop where
  valueTypes : g.valueTypes <+: g'.valueTypes := by exact List.prefix_rfl
  structs : g.structs <+: g'.structs := by exact List.prefix_rfl
  attributes : g.attributes <+: g'.attributes := by exact List.prefix_rfl
  elements : g.elements <+: g'.elements := by exact List.prefix_rfl

theorem getElem?_of_isPrefix {xs ys : List α} (h : xs <+: ys) (x : Nat) (a : α)
    (ha : xs[x]? = some a) : ys[x]? = some a := by
  obtain ⟨zs, rfl⟩ := h
  exact (List.getElem?_append_left (List.getElem?_eq_some_iff.mp ha).choose).trans ha

/-- Definitions that come first keep their numbers. -/
theorem Begins.nodeKept (h : g.Begins g') (c : Category) (x : Nat) : g.NodeKept g' c x := by
  cases c with
  | valueType => exact getElem?_of_isPrefix h.valueTypes x
  | struct => exact getElem?_of_isPrefix h.structs x
  | «attribute» => exact getElem?_of_isPrefix h.attributes x
  | element => exact getElem?_of_isPrefix h.elements x

theorem rel_mono {R S : α → β → Prop} {a : Option α} {b : Option β} (h : Option.Rel R a b)
    (hRS : ∀ x y, R x y → S x y) : Option.Rel S a b := by
  cases h with
  | none => exact .none
  | some hx => exact .some (hRS _ _ hx)

section Mono

variable (hk : g.Keeps g')

include hk

/-- What refers to definitions goes on referring to them. -/
theorem Named.mono (h : g.Named path c name x) : g'.Named path c name x := by
  obtain ⟨n, r, hr, hpath, hx⟩ := h
  exact ⟨n, r, hk.position hr, hpath, hk.registers hx⟩

theorem ShowsValue.mono {v : ValueLink} {b : ValueBase} (h : g.ShowsValue v b) :
    g'.ShowsValue v b := by
  cases h with
  | predefined p => exact .predefined p
  | valueType named => exact .valueType (named.mono hk)

theorem ShowsField.mono {v : ValueNode} {w : StructValue} (h : g.ShowsField v w) :
    g'.ShowsField v w := ⟨h.name, h.optional, h.base.mono hk, h.nullable⟩

theorem ShowsStruct.mono {v : StructNode} {r : Struct} (h : g.ShowsStruct v r) :
    g'.ShowsStruct v r := ⟨h.name, h.values.imp fun _ _ hv => hv.mono hk⟩

theorem ShowsBase.mono {b : BaseLink} {u : Base} (h : g.ShowsBase b u) : g'.ShowsBase b u := by
  cases h with
  | value shows => exact .value (shows.mono hk)
  | struct named => exact .struct (named.mono hk)

theorem ShowsType.mono {v : TypeNode} {u : DataType} (h : g.ShowsType v u) :
    g'.ShowsType v u := ⟨h.base.mono hk, h.nullable, h.array⟩

theorem ShowsAttribute.mono {v : AttributeNode} {b : AttributeDef} (h : g.ShowsAttribute v b) :
    g'.ShowsAttribute v b := ⟨h.name, rel_mono h.type fun _ _ ht => ht.mono hk⟩

theorem ShowsContent.mono {v : ContentNode} {b : Content} (h : g.ShowsContent v b) :
    g'.ShowsContent v b := by
  obtain ⟨hattributes, helements⟩ := h
  refine .unordered (hattributes.imp fun _ _ hu => ?_) (helements.imp fun _ _ hu => ?_)
  · cases hu with
    | defined named => exact .defined (named.mono hk)
    | inline loose node shows =>
        obtain ⟨hloose, hnode⟩ := hk.loose loose node
        exact .inline hloose hnode (shows.mono hk)
  · obtain ⟨named⟩ := hu
    exact .mk (named.mono hk)

/-- A definition that stays as it is shows what it has shown. -/
theorem ShowsItem.mono {i : Item} (hnode : g.NodeKept g' c x) (h : g.ShowsItem path n c x i) :
    g'.ShowsItem path n c x i := by
  cases h with
  | valueType node => exact .valueType (hnode _ node)
  | struct node shows => exact .struct (hnode _ node) (shows.mono hk)
  | «attribute» node shows => exact .attribute (hnode _ node) (shows.mono hk)
  | element node name shows inside =>
      exact .element (hnode _ node) name (rel_mono shows fun _ _ hc => hc.mono hk)
        (hk.position inside)

end Mono

/-! ## Changes of nodes -/

/-- If the scopes stay as they are, then all that refers to a definition is kept. -/
theorem keeps_of_scopes (hscopes : g'.scopes = g.scopes)
    (hloose : ∀ a, g.Loose a → g.NodeKept g' .attribute a) : g.Keeps g' where
  position := by
    intro n r hr
    rwa [position?, hscopes]
  registers := by
    intro n c key x hx
    rwa [Registers, hscopes]
  loose := by
    intro a v ha hv
    refine ⟨fun n key hx => ha n key ?_, hloose a ha v hv⟩
    rwa [Registers, hscopes] at hx

/-- New definitions alone take nothing away. -/
theorem Begins.keeps (h : g.Begins g') (hscopes : g'.scopes = g.scopes) : g.Keeps g' :=
  keeps_of_scopes hscopes fun a _ => h.nodeKept .attribute a

/-- The root can be set anew where definitions are made that no scope registers. -/
theorem Shows.of_root (h : g.Shows s) (hbegins : g.Begins g') (hscopes : g'.scopes = g.scopes)
    (hlevels : ∀ path, t.level? path = s.level? path)
    (hroot : Option.Rel (fun x name => g.Registers 0 .element name x) g'.root t.root) :
    g'.Shows t := by
  have hk := hbegins.keeps hscopes
  have hposition (n : Nat) : g'.position? n = g.position? n := by rw [position?, hscopes, position?]
  refine ⟨hscopes ▸ h.wired, hk.position h.top, ?_, ?_, ?_, ?_⟩
  · intro n r hr hn
    rw [hposition] at hr
    obtain ⟨node, scope, outer, registers⟩ := h.inside n r hr hn
    have hnode := hbegins.nodeKept .element _ _ node
    exact .mk hnode scope (hk.position outer) (hk.registers registers)
  · intro n r hr
    rw [hposition] at hr
    obtain ⟨d, hd, hitems⟩ := h.levels n r hr
    refine ⟨d, (hlevels r.path).trans hd, fun c => ?_⟩
    rw [hscopes]
    exact (hitems c).imp fun p i hp => ⟨hp.key, hp.shows.mono hk (hbegins.nodeKept c p.2)⟩
  · intro n m c key name x hn hm
    rw [Registers, hscopes] at hn hm
    exact h.once n m c key name x hn hm
  · exact rel_mono hroot fun _ _ hx => hk.registers hx

/-- Definitions that no scope registers do not matter. -/
theorem Shows.of_nodes (h : g.Shows s) (hbegins : g.Begins g') (hscopes : g'.scopes = g.scopes)
    (hroot : g'.root = g.root) : g'.Shows s :=
  h.of_root hbegins hscopes (fun _ => rfl) (hroot ▸ h.root)

/-- Another root is set in both. -/
theorem Shows.withRoot (h : g.Shows s) (hx : g.Registers 0 .element name x) :
    Shows { g with root := some x } { s with root := some name } := by
  refine h.of_root {} rfl (fun path => ?_) (.some hx)
  rw [Schema.level?, Schema.scopeAt?_withRoot, Schema.level?]

/-- One definition of a scope has changed, in the graph and in the schema. -/
theorem Shows.alter (h : g.Shows s) {f : Item → Item} {p : Place} (hscopes : g'.scopes = g.scopes)
    (hroot : g'.root = g.root) (hp : g.At s n p) (hx : g.Registers n c name x)
    (hnodes : ∀ k y, ¬ (k = c ∧ y = x) → g.NodeKept g' k y)
    (hinner : ∀ (e : Nat) (v : ElementNode), g.elements[e]? = some v →
      ∃ v', g'.elements[e]? = some v' ∧ v'.scope = v.scope)
    (hchanged : s.ChangedAt t p.path d d') (halters : d.Alters d' c name f)
    (hf : g.Keeps g' → ∀ i, i.name = name → g.ShowsItem p.path n c x i →
      (f i).name = name ∧ g'.ShowsItem p.path n c x (f i)) : g'.Shows t := by
  obtain ⟨r, hr, hpath⟩ := hp.position
  rw [← hpath] at hchanged hf
  have hk : g.Keeps g' := keeps_of_scopes hscopes fun a ha => hnodes .attribute a (by
    rintro ⟨rfl, rfl⟩
    exact ha n name hx)
  have hposition (n : Nat) : g'.position? n = g.position? n := by rw [position?, hscopes, position?]
  -- All other definitions show what they have shown.
  have hother {m : Nat} {q : Position} {k : Category} {p : String × Nat} {i : Item}
      (hp : p ∈ Scopes.items g.scopes m k) (hne : ¬ (m = n ∧ k = c ∧ p.1 = name))
      (hi : g.ShowsEntry q.path m k p i) : g'.ShowsEntry q.path m k p i := by
    refine ⟨hi.key, hi.shows.mono hk (hnodes k p.2 ?_)⟩
    rintro ⟨rfl, rfl⟩
    obtain ⟨rfl, hname⟩ := h.once m n k p.1 name p.2 hp hx
    exact hne ⟨rfl, rfl, hname⟩
  refine ⟨hscopes ▸ h.wired, hk.position h.top, ?_, ?_, ?_, ?_⟩
  · intro m q hq hm
    rw [hposition] at hq
    obtain ⟨node, scope, outer, registers⟩ := h.inside m q hq hm
    obtain ⟨v, hv, hscope⟩ := hinner _ _ node
    exact .mk hv (hscope.trans scope) (hk.position outer) (hk.registers registers)
  · intro m q hq
    rw [hposition] at hq
    obtain ⟨e, he, hitems⟩ := h.levels m q hq
    have hmem (k : Category) :
        List.Forall₂ (fun p i => p ∈ Scopes.items g.scopes m k ∧ g.ShowsEntry q.path m k p i)
          (Scopes.items g.scopes m k) (e.items k) :=
      (List.forall₂_and_left _ _).mpr ⟨fun _ hp => hp, hitems k⟩
    by_cases hm : m = n
    · subst hm
      cases hr.symm.trans hq
      cases hchanged.before.symm.trans he
      refine ⟨d', hchanged.after, fun k => ?_⟩
      rw [hscopes, halters k]
      split
      · rename_i hkc
        subst hkc
        refine List.forall₂_map_right_iff.mpr ((hmem k).imp fun p i hp => ?_)
        split
        · rename_i hname
          -- The key stands for the changed definition only.
          have hpx : p.2 = x := by
            have hp' : (name, p.2) ∈ Scopes.items g.scopes m k := by
              rw [← hname, ← hp.2.key]
              exact hp.1
            exact Option.some.inj ((h.wired.own?_eq_some.mpr hp').symm.trans
              (h.wired.own?_eq_some.mpr hx))
          have hshows := hp.2.shows
          rw [hpx] at hshows
          obtain ⟨hfname, hnew⟩ := hf hk i hname hshows
          exact ⟨by rw [hp.2.key, hname, hfname], by rwa [hpx]⟩
        · rename_i hname
          exact hother hp.1 (fun hall => hname (hp.2.key.symm.trans hall.2.2)) hp.2
      · rename_i hkc
        exact (hmem k).imp fun p i hp => hother hp.1 (fun hall => hkc hall.2.1) hp.2
    · have hne : q.path ≠ r.path := fun hpath => hm (h.position_unique hq hr hpath)
      refine ⟨e, (hchanged.kept he).resolve_left fun hall => hne hall.1, fun k => ?_⟩
      rw [hscopes]
      exact (hmem k).imp fun p i hp => hother hp.1 (fun hall => hm hall.1) hp.2
  · intro n m c key name x hn hm
    rw [Registers, hscopes] at hn hm
    exact h.once n m c key name x hn hm
  · rw [hroot, hchanged.root]
    exact rel_mono h.root fun _ _ hx => hk.registers hx

/-! ## Registrations -/

/-- A registration moves no scope. -/
@[simp] theorem position?_withItem (g : Graph) (n : Nat) (c : Category) (key : String) (x m : Nat) :
    (g.withItem n c key x).position? m = g.position? m := by
  rw [position?, position?, withItem, Scopes.insert, Scopes.at?_modify, Option.map_map]
  congr 1
  funext node
  dsimp only [Function.comp_apply]
  split
  · simp [ScopeNode.position]
  · rfl

/-- A registration is the last of its scope and kind. -/
theorem items_withItem (hn : n < g.scopes.length) (c : Category) (key : String) (x m : Nat)
    (k : Category) :
    Scopes.items (g.withItem n c key x).scopes m k =
      Scopes.items g.scopes m k ++ if m = n ∧ k = c then [(key, x)] else [] := by
  rw [withItem, Scopes.items_insert hn]
  split
  · rfl
  · rw [List.append_nil]

section Add

variable {g₁ : Graph} {p : Place} (new : Item)

/-- Registering what has just been made keeps all else. -/
theorem keeps_withItem (hn : n < g₁.scopes.length)
    (hposition : ∀ {m q}, g.position? m = some q → g₁.position? m = some q)
    (hitems : ∀ m k, Scopes.items g₁.scopes m k = Scopes.items g.scopes m k)
    (hbegins : g.Begins g₁) (hunused : g.count c ≤ x) (key : String) :
    g.Keeps (g₁.withItem n c key x) where
  position := by
    intro m q hq
    rw [position?_withItem]
    exact hposition hq
  registers := by
    intro m k name y hy
    rw [Registers, items_withItem hn, hitems]
    exact List.mem_append_left _ hy
  loose := by
    intro a v ha hv
    refine ⟨fun m name hm => ?_, hbegins.nodeKept .attribute a v hv⟩
    rw [Registers, items_withItem hn, hitems, List.mem_append] at hm
    rcases hm with hm | hm
    · exact ha m name hm
    · split at hm
      · rename_i hall
        obtain ⟨-, rfl⟩ := Prod.mk.inj (List.mem_singleton.mp hm)
        obtain ⟨-, rfl⟩ := hall
        exact absurd (List.getElem?_eq_some_iff.mp hv).choose (Nat.not_lt.mpr hunused)
      · cases hm

/-- A definition is made and registered in the graph, and what it shows is added to the schema. The
graph `g₁` has the definition and the scope of the definition, if it is to have one. -/
theorem Shows.add (h : g.Shows s)
    (hposition : ∀ {m q}, g.position? m = some q → g₁.position? m = some q)
    (hitems : ∀ m k, Scopes.items g₁.scopes m k = Scopes.items g.scopes m k)
    (hwired : Scopes.Wired g₁.scopes) (hroot : g₁.root = g.root)
    (hbegins : g.Begins g₁) (hp : g.At s n p) (hfree : g.Free n c new.name)
    (hunused : g.count c ≤ x) (hx : (g₁.withItem n c new.name x).ShowsItem p.path n c x new)
    (hfresh : ∀ {m q}, g₁.position? m = some q → g.position? m = none →
      (g₁.withItem n c new.name x).Inside m q ∧ t.level? q.path = some {})
    (hchanged : s.ChangedAt t p.path d d') (hgains : d.Gains d' c new) :
    (g₁.withItem n c new.name x).Shows t := by
  obtain ⟨r, hr, hpath⟩ := hp.position
  rw [← hpath] at hx hchanged
  have hn : n < g₁.scopes.length := Scopes.lt_of_at? (at?_of_position? (hposition hr)).choose_spec.1
  have hk := keeps_withItem hn hposition hitems hbegins hunused new.name
  have hbegins' : g.Begins (g₁.withItem n c new.name x) :=
    ⟨hbegins.valueTypes, hbegins.structs, hbegins.attributes, hbegins.elements⟩
  have hnew (m : Nat) (k : Category) :
      Scopes.items (g₁.withItem n c new.name x).scopes m k =
        Scopes.items g.scopes m k ++ if m = n ∧ k = c then [(new.name, x)] else [] := by
    rw [items_withItem hn, hitems]
  have hregisters {m : Nat} {k : Category} {key : String} {y : Nat}
      (hy : (g₁.withItem n c new.name x).Registers m k key y) :
      g.Registers m k key y ∨ m = n ∧ k = c ∧ key = new.name ∧ y = x := by
    rw [Registers, hnew, List.mem_append] at hy
    refine hy.imp id fun hy => ?_
    split at hy
    · rename_i hall
      obtain ⟨rfl, rfl⟩ := Prod.mk.inj (List.mem_singleton.mp hy)
      exact ⟨hall.1, hall.2, rfl, rfl⟩
    · cases hy
  have hloose {m : Nat} {key : String} : ¬ g.Registers m c key x := by
    intro hm
    obtain ⟨q, hq⟩ := position?_of_registers hm
    obtain ⟨i, -, hi⟩ := h.showsItem_of_registers hq hm
    exact absurd hi.lt_count (Nat.not_lt.mpr hunused)
  refine ⟨hwired.insert ?_ x, hk.position h.top, ?_, ?_, ?_, ?_⟩
  · rw [Scopes.own?, hitems]
    exact hfree.free
  · intro m q hq hm
    rw [position?_withItem] at hq
    cases hold : g.position? m with
    | none => exact (hfresh hq hold).1
    | some q' =>
        cases hq.symm.trans (hposition hold)
        obtain ⟨node, scope, outer, registers⟩ := h.inside m q hold hm
        have hnode := hbegins'.nodeKept .element _ _ node
        exact .mk hnode scope (hk.position outer) (hk.registers registers)
  · intro m q hq
    rw [position?_withItem] at hq
    cases hold : g.position? m with
    | none =>
        have hnil (k : Category) : Scopes.items g.scopes m k = [] := by
          rw [Scopes.items, Option.map_eq_none_iff.mp hold]
          rfl
        have hne : m ≠ n := by
          rintro rfl
          cases hold.symm.trans hr
        refine ⟨{}, (hfresh hq hold).2, fun k => ?_⟩
        rw [hnew, hnil, if_neg fun hall => hne hall.1, Scope.items_empty]
        exact .nil
    | some q' =>
        cases hq.symm.trans (hposition hold)
        obtain ⟨e, he, hshown⟩ := h.levels m q hold
        have hkept (k : Category) :
            List.Forall₂ ((g₁.withItem n c new.name x).ShowsEntry q.path m k)
              (Scopes.items g.scopes m k) (e.items k) :=
          (hshown k).imp fun p i hp => ⟨hp.key, hp.shows.mono hk (hbegins'.nodeKept k p.2)⟩
        by_cases hm : m = n
        · subst hm
          cases hr.symm.trans hold
          cases hchanged.before.symm.trans he
          refine ⟨d', hchanged.after, fun k => ?_⟩
          rw [hnew, hgains k]
          refine List.rel_append (hkept k) ?_
          by_cases hkc : k = c
          · subst hkc
            rw [if_pos ⟨rfl, rfl⟩, if_pos rfl]
            exact .cons ⟨rfl, hx⟩ .nil
          · rw [if_neg fun hall => hkc hall.2, if_neg hkc]
            exact .nil
        · have hne : q.path ≠ r.path := fun hpath => hm (h.position_unique hold hr hpath)
          refine ⟨e, (hchanged.kept he).resolve_left fun hall => hne hall.1, fun k => ?_⟩
          rw [hnew, if_neg fun hall => hm hall.1, List.append_nil]
          exact hkept k
  · intro m₁ m₂ k key₁ key₂ y h₁ h₂
    rcases hregisters h₁ with hold₁ | ⟨rfl, rfl, rfl, rfl⟩
    · rcases hregisters h₂ with hold₂ | ⟨-, rfl, -, rfl⟩
      · exact h.once m₁ m₂ k key₁ key₂ y hold₁ hold₂
      · exact absurd hold₁ hloose
    · rcases hregisters h₂ with hold₂ | ⟨rfl, -, rfl, -⟩
      · exact absurd hold₂ hloose
      · exact ⟨rfl, rfl⟩
  · change Option.Rel _ g₁.root _
    rw [hroot, hchanged.root]
    exact rel_mono h.root fun _ _ hy => hk.registers hy

/-- A definition other than an element has no scope. -/
theorem Shows.addLeaf (h : g.Shows s) (hbegins : g.Begins g₁) (hscopes : g₁.scopes = g.scopes)
    (hroot : g₁.root = g.root) (hp : g.At s n p) (hfree : g.Free n c new.name)
    (hunused : g.count c ≤ x) (hx : (g₁.withItem n c new.name x).ShowsItem p.path n c x new)
    (hchanged : s.ChangedAt t p.path d d') (hgains : d.Gains d' c new) :
    (g₁.withItem n c new.name x).Shows t := by
  have hposition (m : Nat) : g₁.position? m = g.position? m := by rw [position?, hscopes, position?]
  refine h.add new (fun hq => (hposition _).trans hq) (fun m k => by rw [hscopes])
    (hscopes ▸ h.wired) hroot hbegins hp hfree hunused hx (fun hq hnone => ?_) hchanged hgains
  rw [hposition, hnone] at hq
  cases hq

/-- An element has a scope of its own, which is new and empty in both. -/
theorem Shows.addElement (h : g.Shows s) (hp : g.At s n p) (hfree : g.Free n .element name)
    (hchanged : s.ChangedAt t p.path d { d with elements := d.elements ++ [{ name }] }) :
    ((g.withElement name p.path (some n)).withItem n .element name g.elements.length).Shows t := by
  have hn := hfree.defined
  have hposition {m : Nat} {q : Position} (hq : g.position? m = some q) :
      (g.withElement name p.path (some n)).position? m = some q := by
    rw [position?, withElement, Scopes.at?_cons_of_lt
      (Scopes.lt_of_at? (at?_of_position? hq).choose_spec.1)]
    exact hq
  have hinside : (g.withElement name p.path (some n)).position? g.scopes.length =
      some ⟨name :: p.path, some g.elements.length, some n⟩ := by
    rw [position?, withElement, Scopes.at?_cons_length]
    rfl
  have hnode : ((g.withElement name p.path (some n)).withItem n .element name
      g.elements.length).elements[g.elements.length]? = some { name, scope := g.scopes.length } :=
    List.getElem?_concat_length
  obtain ⟨r, hr, hpath⟩ := hp.position
  refine h.add (.element name none) hposition ?_ ?_ rfl { elements := List.prefix_append _ _ } hp
    hfree (Nat.le_refl _) ?_ ?_ hchanged (Scope.gains_element d { name })
  · intro m k
    rcases Nat.lt_trichotomy m g.scopes.length with hm | rfl | hm
    · exact Scopes.items_cons_of_lt hm
    · rw [withElement, Scopes.items_new, Scopes.items_eq_nil (Nat.le_refl _)]
    · rw [withElement, Scopes.items_eq_nil hm, Scopes.items_eq_nil (Nat.le_of_lt hm)]
  · refine h.wired.cons_new _ _ fun m hm => ?_
    cases hm
    exact hn
  · exact .element hnode rfl .none ((position?_withItem _ _ _ _ _ _).trans hinside)
  · intro m q hq hnone
    -- The one scope that is new is the scope of the element.
    have hm : m = g.scopes.length := by
      have hle : g.scopes.length ≤ m := by
        by_contra hlt
        obtain ⟨node, hnode⟩ := Scopes.exists_at? (Nat.lt_of_not_le hlt)
        rw [position?, hnode] at hnone
        cases hnone
      have hlt : m < g.scopes.length + 1 := Scopes.lt_of_at? (at?_of_position? hq).choose_spec.1
      omega
    subst hm
    cases hq.symm.trans hinside
    refine ⟨?_, ?_⟩
    · have hregisters : ((g.withElement name p.path (some n)).withItem n .element name
          g.elements.length).Registers n .element name g.elements.length := by
        rw [Registers, items_withItem (Nat.lt_succ_of_lt hn), if_pos ⟨rfl, rfl⟩]
        exact List.mem_append_right _ (List.mem_singleton_self _)
      have houter := (position?_withItem _ n .element name g.elements.length n).trans (hposition hr)
      have hmk := Inside.mk hnode rfl houter hregisters
      rwa [hpath] at hmk
    · have hnew : name ∉ d.names .element := by
        have hlocal := h.hasLocal_eq_contains hr (hpath ▸ hchanged.before) .element name
        rw [hasLocal_eq, hfree.free] at hlocal
        simpa using hlocal.symm
      obtain ⟨e, he⟩ : ∃ e, t.level? (name :: p.path) = some e :=
        Schema.exists_level?_cons.mpr ⟨_, hchanged.after, by simp [Scope.names]⟩
      rcases hchanged.elsewhere _ (List.cons_ne_self name p.path) with hsame | ⟨-, hempty⟩
      · obtain ⟨d₀, hd₀, hname⟩ := Schema.exists_level?_cons.mp ⟨e, hsame.symm.trans he⟩
        cases hd₀.symm.trans hchanged.before
        exact absurd hname hnew
      · exact hempty

end Add

end SmlSchema.Graph
