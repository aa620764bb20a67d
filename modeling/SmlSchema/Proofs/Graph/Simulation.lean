import SmlSchema.Proofs.Graph.Changes

/-! # Commands on a schema and calls on a graph

A command can be carried out on a schema, and by calls on a graph that shows the schema. Both
succeed or both fail for the same reason, and afterwards the graph shows the schema again.
-/

namespace SmlSchema

open Attempt

namespace Graph

variable {g : Graph} {s : Schema} {n x : Nat} {p q : Place} {name : String}

/-! ## Definitions that change -/

/-- A struct gets one more value. -/
theorem Shows.pushValue (h : g.Shows s) {r : Struct} {v : StructNode} {u : ValueNode}
    {w : StructValue} (hx : g.Finds s .struct name x q (.struct r))
    (hnode : g.structs[x]? = some v) (hu : g.ShowsField u w) :
    Shows { g with structs := g.structs.set x (v.push u) }
      (s.replace q (q.scope.modifyStruct name (·.push w))) := by
  obtain ⟨-, m, hm, hregisters, -⟩ := hx
  refine h.alter rfl rfl hm hregisters ?_ (fun e v hv => ⟨v, hv, rfl⟩)
    (Place.changedAt_leaves hm.placed rfl) (Scope.alters_modifyStruct q.scope name w) ?_
  · intro k y hne
    cases k with
    | struct =>
        intro v' hv'
        rwa [List.getElem?_set_ne fun hxy => hne ⟨rfl, hxy.symm⟩]
    | _ => exact fun v' hv' => hv'
  · intro hk i hi hshown
    cases hshown with
    | struct node shows =>
        cases hnode.symm.trans node
        refine ⟨hi, .struct (List.getElem?_set_self (List.getElem?_eq_some_iff.mp hnode).choose) ?_⟩
        exact ⟨shows.name, List.rel_append (shows.values.imp fun _ _ hv => hv.mono hk)
          (.cons (hu.mono hk) .nil)⟩

/-- An attribute changes. -/
theorem Shows.setAttribute (h : g.Shows s) {a b : AttributeDef} {v w : AttributeNode}
    (hx : g.Finds s .attribute name x q (.attribute a)) (hnode : g.attributes[x]? = some v)
    (hw : g.ShowsAttribute w b) (hb : b.name = name) :
    Shows { g with attributes := g.attributes.set x w }
      (s.replace q (q.scope.modifyAttribute name fun _ => b)) := by
  obtain ⟨-, m, hm, hregisters, -⟩ := hx
  refine h.alter rfl rfl hm hregisters ?_ (fun e v hv => ⟨v, hv, rfl⟩)
    (Place.changedAt_leaves hm.placed rfl) (Scope.alters_modifyAttribute q.scope name b) ?_
  · intro k y hne
    cases k with
    | «attribute» =>
        intro v' hv'
        rwa [List.getElem?_set_ne fun hxy => hne ⟨rfl, hxy.symm⟩]
    | _ => exact fun v' hv' => hv'
  · intro hk i _ _
    exact ⟨hb, .attribute (List.getElem?_set_self (List.getElem?_eq_some_iff.mp hnode).choose)
      (hw.mono hk)⟩

/-- The element `v`, which has the number `e`, owns the scope `n`. It shows the element `w` of the
scope around. -/
structure Owner (g : Graph) (s : Schema) (n : Nat) (outer : Place) (name : String) (e : Nat)
    (v : ElementNode) (w : ElementDef) : Prop where
  node : g.elements[e]? = some v
  scope : v.scope = n
  tag : v.name = name
  found : outer.scope.element? name = some w
  content : Option.Rel g.ShowsContent v.content w.content
  around : ∃ m, g.At s m outer ∧ g.Registers m .element name e

/-- An element gets content or other content. -/
theorem Shows.setContent (h : g.Shows s) {outer : Place} {e : Nat} {v : ElementNode}
    {w : ElementDef} {c : ContentNode} {b : Content} (ho : g.Owner s n outer name e v w)
    (hc : g.ShowsContent c b) :
    (g.withContent e v c).Shows
      (s.replace outer (outer.scope.modifyElement name fun _ => { w with content := some b })) := by
  obtain ⟨m, hm, hregisters⟩ := ho.around
  have hlt := (List.getElem?_eq_some_iff.mp ho.node).choose
  refine h.alter rfl rfl hm hregisters ?_ ?_ (Place.changedAt_content hm.placed ho.found)
    (Scope.alters_modifyElement _ name _) ?_
  · intro k y hne
    cases k with
    | element =>
        intro v' hv'
        rwa [withContent, List.getElem?_set_ne fun hxy => hne ⟨rfl, hxy.symm⟩]
    | _ => exact fun v' hv' => hv'
  · intro e' v' hv'
    by_cases he : e = e'
    · subst he
      cases ho.node.symm.trans hv'
      exact ⟨_, List.getElem?_set_self hlt, rfl⟩
    · exact ⟨v', by rwa [withContent, List.getElem?_set_ne he], rfl⟩
  · intro hk i _ hshown
    refine ⟨rfl, ?_⟩
    cases hshown with
    | element node htag shows inside =>
        cases ho.node.symm.trans node
        obtain rfl := ho.tag
        refine .element (List.getElem?_set_self hlt) rfl (.some (hc.mono hk)) ?_
        rw [htag]
        exact hk.position inside

/-! ## Steps -/

/-- Both computations succeed or both fail for the same reason, and the graph that is left shows the
schema that is left. -/
inductive Agree : Except Error α × Graph → Except Error β × Schema → Prop
  | ok {a : α} {b : β} {g : Graph} {s : Schema} (shows : g.Shows s) : Agree (.ok a, g) (.ok b, s)
  | error (e : Error) {g : Graph} {s : Schema} (shows : g.Shows s) :
      Agree (.error e, g) (.error e, s)

namespace Agree

variable {R : α → β → Prop} {a : α} {x : Except Error α} {y : Except Error β} {f : α → Work γ}
  {k : β → Building δ} {r : Except Error δ × Schema}

/-- Checks that are alike. -/
theorem lift (hs : g.Shows s) (h : Alike R x y)
    (hfk : ∀ a b, y = .ok b → R a b → Agree (Attempt.on (f a) g) (Attempt.on (k b) s)) :
    Agree (Attempt.on (liftM x >>= f) g) (Attempt.on (liftM y >>= k) s) := by
  cases h with
  | ok h => exact hfk _ _ rfl h
  | error e => exact .error e hs

/-- Checks that are alike, of which one is the first part of another check. -/
theorem liftThen {k : β → Except Error ε} {l : ε → Building δ} (hs : g.Shows s)
    (h : Alike R x y)
    (hfk : ∀ a b, y = .ok b → R a b →
      Agree (Attempt.on (f a) g) (Attempt.on (liftM (k b) >>= l) s)) :
    Agree (Attempt.on (liftM x >>= f) g) (Attempt.on (liftM (y >>= k) >>= l) s) := by
  cases h with
  | ok h => exact hfk _ _ rfl h
  | error e => exact .error e hs

/-- The same check, which for the schema is the first part of another one. -/
theorem sameThen {z : Except Error α} {k : α → Except Error β} {l : β → Building δ} (hs : g.Shows s)
    (hfk : ∀ a, z = .ok a → Agree (Attempt.on (f a) g) (Attempt.on (liftM (k a) >>= l) s)) :
    Agree (Attempt.on (liftM z >>= f) g) (Attempt.on (liftM (z >>= k) >>= l) s) := by
  cases z with
  | ok a => exact hfk a rfl
  | error e => exact .error e hs

/-- The same range. -/
theorem range {z : Except RangeFlaw α} {k : α → Building δ} (hs : g.Shows s)
    (hfk : ∀ a, Agree (Attempt.on (f a) g) (Attempt.on (k a) s)) :
    Agree (Attempt.on ((liftM z : Work α) >>= f) g)
      (Attempt.on ((liftM z : Building α) >>= k) s) := by
  cases z with
  | ok a => exact hfk a
  | error e => exact .error (.range e) hs

/-- A check of the graph that succeeds. -/
theorem pass (hx : x = .ok a) (h : Agree (Attempt.on (f a) g) r) :
    Agree (Attempt.on (liftM x >>= f) g) r := by
  subst hx
  exact h

/-- Looking at the graph. -/
theorem get {f : Graph → Work γ} (h : Agree (Attempt.on (f g) g) r) :
    Agree (Attempt.on (MonadState.get >>= f) g) r := h

/-- Looking at the schema. -/
theorem getSchema {o : Except Error α × Graph} {k : Schema → Building δ}
    (h : Agree o (Attempt.on (k s) s)) : Agree o (Attempt.on (MonadState.get >>= k) s) := h

/-- A change of the graph alone. -/
theorem after {g' : Graph} {z : Work α} (hz : z.on g = (.ok a, g'))
    (h : Agree (Attempt.on (f a) g') r) : Agree (Attempt.on (z >>= f) g) r := by
  rwa [on_bind_of_ok hz]

/-- What is returned at the end does not matter. -/
theorem andPure {z : Work α} {h : α → γ} (hz : Agree (Attempt.on z g) r) :
    Agree (Attempt.on (z >>= fun a => pure (h a)) g) r := by
  generalize hon : Attempt.on z g = o at hz
  cases hz with
  | ok shows =>
      rw [on_bind_of_ok hon]
      exact .ok shows
  | error e shows =>
      rw [on_bind_of_error hon]
      exact .error e shows

end Agree

/-! ## Parts of commands -/

/-- A name is free for both or for none. -/
theorem Shows.checkFree (h : g.Shows s) (hp : g.At s n p) (c : Category) (name : String) :
    g.checkFree n c name = p.scope.checkFree p.path c name := by
  obtain ⟨r, hr, hpath⟩ := hp.position
  obtain ⟨node, hnode, rfl⟩ := at?_of_position? hr
  have hlevel := Schema.level?_of_placeAt? hp.placed
  rw [← hpath] at hlevel
  rw [Graph.checkFree, scopeAt, hnode, numbered, ok_bind, Scope.checkFree,
    h.hasLocal_eq_contains hr hlevel, Scope.names_shallow, ← hpath]
  rfl

/-- What is made in the scope lies inside the same elements for both. -/
theorem At.around (hp : g.At s n p) : g.around (some n) = .ok p.path := by
  obtain ⟨r, hr, hpath⟩ := hp.position
  obtain ⟨node, hnode, rfl⟩ := at?_of_position? hr
  rw [Graph.around, scopeAt, hnode, numbered, ok_bind, ← hpath]
  rfl

/-- The scope of an element has its owner in both. -/
theorem Shows.owner (h : g.Shows s) {outer : Place} {inner : Scope}
    (hp : g.At s n (.within outer name inner)) (part : String) :
    ∃ e v w, g.ownerOf n part = .ok e ∧ outer.getElement name = .ok (outer, w) ∧
      g.Owner s n outer name e v w := by
  obtain ⟨e, m, v, hn, hm, hnode, hscope, hregisters⟩ := h.outer hp
  obtain ⟨node, hat, hposition⟩ := at?_of_position? hn
  obtain ⟨r, hr, hpath⟩ := hm.position
  have hown := h.own? hr (hpath ▸ Schema.level?_of_placeAt? hm.placed) .element name
  rw [h.wired.own?_eq_some.mpr hregisters, Scope.item?_shallow, Scope.item?_element] at hown
  cases hw : outer.scope.element? name with
  | none =>
      rw [hw] at hown
      cases hown
  | some w =>
      rw [hw] at hown
      have hfound : outer.element? name = some (outer, w) := Place.nearest?_of_scope hw
      refine ⟨e, v, w, ?_, by rw [Place.getElement, hfound]; rfl, ?_⟩
      · rw [ownerOf, scopeAt, hat, numbered, ok_bind]
        have howner : node.owner = some e := congrArg Position.owner hposition
        rw [howner]
        rfl
      · cases hown with
        | some hi =>
            obtain ⟨hname, -, hi⟩ := hi
            cases hi with
            | element node tag shows =>
                cases hnode.symm.trans node
                exact ⟨hnode, hscope, tag.trans hname, hw, shows, m, hm, hregisters⟩

/-- Changing the owner of a scope. -/
theorem Agree.owner {part : String} {change : ElementDef → Except Error ElementDef}
    {f : Nat → Work α} {z : Building δ} (h : g.Shows s) (hp : g.At s n p)
    (hf : ∀ outer name e v w, g.Owner s n outer name e v w →
      Agree (Attempt.on (f e) g) (Attempt.on (do
        let changed ← liftM (change w)
        outer.put (outer.scope.modifyElement name fun _ => changed)
        z) s)) :
    Agree (Attempt.on (liftM (g.ownerOf n part) >>= f) g)
      (Attempt.on (do p.changeOwner part change; z) s) := by
  cases p with
  | top d =>
      obtain ⟨r, hr, hpath⟩ := hp.position
      obtain rfl := h.eq_zero hr hpath
      obtain ⟨node, hnode, hposition⟩ := at?_of_position? h.top
      have howner : node.owner = none := congrArg Position.owner hposition
      have herror : g.ownerOf 0 part = .error (.lacking (.owner part)) := by
        rw [ownerOf, scopeAt, hnode, numbered, ok_bind, howner]
      rw [herror]
      exact .error _ h
  | within outer name inner =>
      obtain ⟨e, v, w, howner, hfound, ho⟩ := h.owner hp part
      refine .pass howner ?_
      rw [Place.changeOwner, bind_assoc, hfound]
      change Agree _ (Attempt.on ((do
        let changed ← liftM (change w)
        outer.put (outer.scope.modifyElement name fun _ => changed)) >>= fun _ => z) s)
      rw [bind_assoc]
      exact hf outer name e v w ho

/-- The owner has the same name in both. -/
theorem Owner.name_eq {outer : Place} {e : Nat} {v : ElementNode} {w : ElementDef}
    (ho : g.Owner s n outer name e v w) : v.name = w.name :=
  ho.tag.trans (mem_of_find?_name ho.found).2.symm

/-- The owner gets content in both, or it cannot get it in either. -/
theorem Owner.newContent {outer : Place} {e : Nat} {v : ElementNode} {w : ElementDef}
    (ho : g.Owner s n outer name e v w) (kind : Option ReservedContent) :
    Alike (fun c w' => ∃ b, w' = { w with content := some b } ∧ g.ShowsContent c b)
      (v.newContent kind) (w.setContent kind) := by
  have hcontent := ho.content
  unfold ElementNode.newContent ElementDef.setContent
  rw [ho.name_eq]
  generalize v.content = c at hcontent ⊢
  generalize w.content = b at hcontent ⊢
  cases hcontent with
  | some => exact .error _
  | none =>
      cases kind with
      | none => exact .ok ⟨_, rfl, .unordered .nil .nil⟩
      | some kind => exact .error _

/-- Changing the content of the owner of a scope. -/
theorem Agree.content {part : String} {f : Nat → Work Unit}
    (change : Graph → ElementNode → ContentNode → Except Error ContentNode)
    {change' : String → Content → Except Error Content} {z : Building δ} (h : g.Shows s)
    (hp : g.At s n p)
    (hf : ∀ e, (f e).on g = (changeContent e part change).on g)
    (hc : ∀ v c b, v.scope = n → g.ShowsContent c b →
      Alike g.ShowsContent (change g v c) (change' v.name b))
    (hz : ∀ owner b b', change' owner b = .ok b' → ∀ t, ∃ x, Attempt.on z t = (.ok x, t)) :
    Agree (Attempt.on (liftM (g.ownerOf n "content") >>= f) g)
      (Attempt.on (do p.changeContent part change'; z) s) := by
  refine .owner h hp fun outer name e v w ho => ?_
  rw [hf]
  refine .get (.pass (congrArg (numbered e) ho.node) ?_)
  have hcontent := ho.content
  rw [ElementNode.contentFor]
  generalize v.content = c at hcontent ⊢
  generalize w.content = b at hcontent ⊢
  cases hcontent with
  | none => exact .error _ h
  | @some c b hcb =>
      have hchanged := hc v c b ho.scope hcb
      rw [ho.name_eq] at hchanged
      refine .pass rfl (.liftThen h hchanged fun c' b' hb' hshows => ?_)
      obtain ⟨x, hx⟩ := hz _ b b' hb'
        (s.replace outer (outer.scope.modifyElement name fun _ => { w with content := some b' }))
      change Agree _ (Attempt.on z _)
      rw [hx]
      exact .ok (h.setContent ho hshows)

/-- A child element has the name of the element that it refers to. -/
theorem Shows.child_name (h : g.Shows s) {u : ElementUse} {b : ElementEntry}
    (hu : g.ShowsChild u b) (name : String) :
    (g.elements[u.definition]?.any fun v => v.name == name) = (b.name == name) := by
  obtain ⟨m, r, hr, -, hx⟩ := hu
  obtain ⟨i, hi, hshows⟩ := h.showsItem_of_registers hr hx
  cases hshows with
  | element node tag =>
      rw [node, Option.any_some, tag, ← hi]
      rfl

/-- An attribute of an element has the name of the definition that it refers to. -/
theorem Shows.use_name (h : g.Shows s) {u : AttributeUse} {b : AttributeEntry}
    (hu : g.ShowsUse u b) (name : String) :
    (g.attributes[u.definition]?.any fun v => v.name == name) = (b.name == name) := by
  cases hu with
  | defined named =>
      obtain ⟨m, r, hr, -, hx⟩ := named
      obtain ⟨i, hi, hshows⟩ := h.showsItem_of_registers hr hx
      cases hshows with
      | «attribute» node shows =>
          rw [node, Option.any_some, shows.name, ← hi]
          rfl
  | inline _ node shows =>
      rw [node, Option.any_some, shows.name]
      rfl

/-- One more attribute in both, or the name is not new. -/
theorem ShowsContent.addEntry (h : g.Shows s) {c : ContentNode} {b : Content}
    (hc : g.ShowsContent c b) (part owner name : String) {use : Except Error AttributeUse}
    {entry : Except Error AttributeEntry} (huse : Alike g.ShowsUse use entry) :
    Alike g.ShowsContent (c.addEntry g owner name use) (b.addEntry part owner name entry) := by
  obtain ⟨hattributes, helements⟩ := hc
  rw [ContentNode.addEntry, Content.addEntry,
    any_eq_of_forall₂ hattributes fun _ _ hu => h.use_name hu name]
  split
  · exact .error _
  · exact huse.bind fun u b hu =>
      .ok (.unordered (List.rel_append hattributes (.cons hu .nil)) helements)

/-- A number that no attribute has yet is not registered. -/
theorem Shows.loose (h : g.Shows s) (hx : g.attributes.length ≤ x) : g.Loose x := by
  intro m key hm
  obtain ⟨r, hr⟩ := position?_of_registers hm
  obtain ⟨i, -, hi⟩ := h.showsItem_of_registers hr hm
  exact absurd hi.lt_count (Nat.not_lt.mpr hx)

/-- The newest attribute gets the newest type. -/
theorem on_assignType_new (g : Graph) (name : String) (t : TypeNode) :
    (assignType g.attributes.length g.types.length).on
        { g with types := g.types ++ [t], attributes := g.attributes ++ [{ name }] } =
      (.ok (), { g with
        types := g.types ++ [t], attributes := g.attributes ++ [{ name, type := some t }] }) := by
  have hnode : attributeAt
      { g with types := g.types ++ [t], attributes := g.attributes ++ [{ name }] }
      g.attributes.length = .ok { name } := congrArg (numbered _) List.getElem?_concat_length
  have htype : numbered g.types.length (g.types ++ [t])[g.types.length]? = .ok t :=
    congrArg (numbered _) List.getElem?_concat_length
  rw [assignType, on_bind_of_ok (on_get _), hnode, htype]
  change (_, _) = (_, _)
  simp

/-- There is one element in both, or there are none or several. -/
theorem Shows.onlyElement (h : g.Shows s) :
    Alike (fun x t => ∃ name, g.Registers 0 .element name x ∧ t = { s with root := some name })
      g.onlyElement s.setDefaultRoot := by
  obtain ⟨node, hnode, -⟩ := at?_of_position? h.top
  have hitems := h.forall₂ h.top rfl .element
  rw [Scope.items_shallow] at hitems
  have hx : Scopes.items g.scopes 0 .element = node.elements.items := Scopes.items_of_at? hnode
  rw [Graph.onlyElement, scopeAt, hnode, numbered, ok_bind, Schema.setDefaultRoot, ← hx]
  have hregisters (p : String × Nat) (hp : p ∈ Scopes.items g.scopes 0 .element) :
      g.Registers 0 .element p.1 p.2 := hp
  change List.Forall₂ _ _ (s.definitions.elements.map (·.item)) at hitems
  rw [List.forall₂_map_right_iff] at hitems
  generalize Scopes.items g.scopes 0 .element = ps at hitems hregisters ⊢
  generalize s.definitions.elements = es at hitems ⊢
  cases hitems with
  | nil => exact .error _
  | @cons p e _ _ hp htail =>
      cases htail with
      | nil =>
          refine .ok ⟨e.name, ?_, rfl⟩
          have hmem := hregisters p (List.mem_singleton_self p)
          rwa [hp.key] at hmem
      | cons => exact .error _

/-! ## Actions -/

section Actions

variable (h : g.Shows s) (hp : g.At s n p)

include h hp

/-- A new enumeration. -/
theorem agree_addEnum (name : String) (labels : List String) :
    Agree (Attempt.on ((Action.addEnum name labels).callIn n) g)
      (Attempt.on ((Action.addEnum name labels).perform p) s) := by
  refine .andPure (.sameThen h fun v hv => .get ?_)
  obtain ⟨-, -, rfl⟩ := ValueType.makeEnum_eq_ok.mp hv
  rw [h.checkFree hp]
  refine .sameThen h fun _ hfree => .ok ?_
  rw [← h.checkFree hp, checkFree_eq_ok] at hfree
  exact h.addLeaf (.valueType (.enum name labels)) { valueTypes := List.prefix_append _ _ } rfl rfl
    hp hfree (Nat.le_refl _) (.valueType List.getElem?_concat_length)
    (Place.changedAt_leaves hp.placed rfl) (Scope.gains_valueType _ _)

/-- A new reserved type. The graph has it before it is registered, so that it stays there if the
name is not free. -/
theorem agree_addReserved (name : String) (kind : ReservedKind) :
    Agree (Attempt.on ((Action.addReserved name kind).callIn n) g)
      (Attempt.on ((Action.addReserved name kind).perform p) s) := by
  have hbegins : g.Begins { g with valueTypes := g.valueTypes ++ [.reserved name kind] } :=
    { valueTypes := List.prefix_append _ _ }
  have hmade := h.of_nodes hbegins rfl rfl
  have hcount : checkNumber { g with valueTypes := g.valueTypes ++ [.reserved name kind] }
      .valueType g.valueTypes.length = .ok () := checkNumber_eq_ok.mpr (by simp [count])
  refine .after rfl (.andPure (.get (.pass hcount (.get ?_))))
  have hfree := hmade.checkFree ⟨hp.placed, hp.position⟩ .valueType name
  rw [hfree]
  refine .sameThen hmade fun _ hok => .ok ?_
  rw [← hfree, checkFree_eq_ok] at hok
  exact h.addLeaf (.valueType (.reserved name kind)) hbegins rfl rfl hp
    ⟨hok.defined, hok.free⟩ (Nat.le_refl _) (.valueType List.getElem?_concat_length)
    (Place.changedAt_leaves hp.placed rfl) (Scope.gains_valueType _ _)

/-- A new empty definition. -/
theorem agree_add (c : Category) (name : String) :
    Agree (Attempt.on ((Action.add c name).callIn n) g)
      (Attempt.on ((Action.add c name).perform p) s) := by
  refine .andPure (.get ?_)
  rw [h.checkFree hp]
  refine .sameThen h fun _ hfree => ?_
  rw [← h.checkFree hp, checkFree_eq_ok] at hfree
  cases c with
  | valueType => exact .error _ h
  | struct =>
      exact .ok (h.addLeaf (.struct { name }) { structs := List.prefix_append _ _ } rfl rfl hp hfree
        (Nat.le_refl _) (.struct List.getElem?_concat_length ⟨rfl, .nil⟩)
        (Place.changedAt_leaves hp.placed rfl) (Scope.gains_struct _ _))
  | «attribute» =>
      exact .ok (h.addLeaf (.attribute { name }) { attributes := List.prefix_append _ _ } rfl rfl hp
        hfree (Nat.le_refl _) (.attribute List.getElem?_concat_length ⟨rfl, .none⟩)
        (Place.changedAt_leaves hp.placed rfl) (Scope.gains_attribute _ _))
  | element =>
      have hmade : Attempt.on (newElement name (some n)) g =
          (.ok g.elements.length, g.withElement name p.path (some n)) := by
        rw [newElement, on_bind_of_ok (on_get g), hp.around]
        rfl
      exact .after hmade (.ok (h.addElement hp hfree (Place.changedAt_addElement hp.placed name)))

/-- A further value of a struct. -/
theorem agree_addStructValue (struct name : String) (optional : Bool) (base : BaseName)
    (nullable : Bool) :
    Agree (Attempt.on ((Action.addStructValue struct name optional base nullable).callIn n) g)
      (Attempt.on ((Action.addStructValue struct name optional base nullable).perform p) s) := by
  refine .get (.lift h (hp.found (h.struct? hp struct)) ?_)
  rintro x ⟨q, r⟩ - hx
  refine .get (.lift h (h.offer hp base) fun offer b _ hoffer => .get ?_)
  obtain ⟨-, m, -, -, hshows⟩ := id hx
  cases hshows with
  | struct node shows =>
      refine .pass (congrArg (numbered x) node) (.pass (h.checkOffer hoffer) ?_)
      exact .lift h (shows.newValue hoffer name optional nullable) fun v w _ hv =>
        .ok (h.pushValue hx node hv)

/-- The type of an attribute. The graph keeps a type that was built, whether or not it can be
assigned. -/
theorem agree_setType (name : String) (base : BaseName) (nullable : Bool) (range : Option Bounds)
    (arrayNullable : Bool) :
    Agree (Attempt.on ((Action.setType name base nullable range arrayNullable).callIn n) g)
      (Attempt.on ((Action.setType name base nullable range arrayNullable).perform p) s) := by
  refine .get (.lift h (h.offer hp base) fun offer b _ hoffer => .range h fun range => ?_)
  rw [buildType, bind_assoc]
  refine .get ?_
  rw [bind_assoc]
  refine .pass (h.checkOffer hoffer) ?_
  rw [bind_assoc]
  refine .lift h (hoffer.makeType nullable range arrayNullable) fun t u _ ht => .after rfl (.get ?_)
  have hbegins : g.Begins { g with types := g.types ++ [t] } := {}
  have hmade := h.of_nodes hbegins rfl rfl
  have hp' : At { g with types := g.types ++ [t] } s n p := ⟨hp.placed, hp.position⟩
  refine .lift hmade (hp'.found (hmade.attribute? hp' name)) ?_
  rintro x ⟨q, a⟩ - hx
  obtain ⟨hname, m, -, -, hshows⟩ := id hx
  cases hshows with
  | «attribute» node shows =>
      have hbuilt : numbered g.types.length (g.types ++ [t])[g.types.length]? = .ok t :=
        congrArg (numbered _) List.getElem?_concat_length
      refine .get (.pass (congrArg (numbered x) node) (.pass hbuilt ?_))
      exact .lift hmade (shows.setType (ht.mono (hbegins.keeps rfl))) fun w b _ hw =>
        .ok (hmade.setAttribute hx node hw.1 (hw.2.trans hname))

/-- A type that a text writes. -/
theorem agree_readType (text : String) :
    Agree (Attempt.on ((Action.readType text).callIn n) g)
      (Attempt.on ((Action.readType text).perform p) s) :=
  .andPure (.get (.lift h (h.readType hp text) fun _ _ _ _ => .ok (h.of_nodes {} rfl rfl)))

/-- The content of the element that owns the scope. -/
theorem agree_setContent (kind : Option ReservedContent) :
    Agree (Attempt.on ((Action.setContent kind).callIn n) g)
      (Attempt.on ((Action.setContent kind).perform p) s) := by
  refine .get (.owner h hp fun outer name e v w ho => ?_)
  refine .get (.pass (congrArg (numbered e) ho.node) ?_)
  refine .lift h (ho.newContent kind) ?_
  rintro c _ - ⟨b, rfl, hc⟩
  exact .ok (h.setContent ho hc)

/-- A child element. -/
theorem agree_addElementEntry (name : String) (range : Bounds) :
    Agree (Attempt.on ((Action.addElementEntry name range).callIn n) g)
      (Attempt.on ((Action.addElementEntry name range).perform p) s) := by
  refine .range h fun o => .get (.content _ h hp (fun e => rfl) (fun v c b hv hc => ?_) ?_)
  · obtain ⟨hattributes, helements⟩ := hc
    dsimp only [Content.addElement]
    rw [any_eq_of_forall₂ helements fun _ _ hu => h.child_name hu name, hv]
    split
    · exact .error _
    · refine (hp.found (h.element? hp name)).bind ?_
      rintro x ⟨q, f⟩ hx
      exact .ok (.unordered hattributes (List.rel_append helements (.cons (.mk hx.named) .nil)))
  · exact fun _ _ _ _ t => ⟨_, rfl⟩

/-- An attribute that is defined in a scope. -/
theorem agree_addAttributeEntry (name : String) (range : Bounds) :
    Agree (Attempt.on ((Action.addAttributeEntry name range).callIn n) g)
      (Attempt.on ((Action.addAttributeEntry name range).perform p) s) := by
  refine .range h fun o => .get (.content _ h hp (fun e => rfl) (fun v c b hv hc => ?_) ?_)
  · rw [hv]
    refine hc.addEntry h _ _ name ((hp.found (h.attribute? hp name)).bind ?_)
    rintro x ⟨q, a⟩ hx
    exact .ok (.defined hx.named)
  · intro owner b b' hb t
    obtain ⟨⟨q, a⟩, hfound⟩ := Content.attribute?_of_addAttribute hb
    rw [Place.getAttribute, hfound]
    exact ⟨_, rfl⟩

/-- An attribute that was made on the spot is added. -/
theorem agree_addInline {v : AttributeNode} {b : AttributeDef} (hx : g.Loose x)
    (hnode : g.attributes[x]? = some v) (hv : g.ShowsAttribute v b) (o : Occurrence) :
    Agree (Attempt.on (do Graph.addInline (← (← MonadState.get).ownerOf n "content") x o) g)
      (Attempt.on (do
        p.changeContent "add_inline_attribute" fun owner c => c.addInline owner b o
        return Product.attributeEntry b o true) s) := by
  refine .get (.content (fun g owner c => c.addEntry g owner.name v.name (.ok ⟨x, o, true⟩)) h hp
    (fun e => ?_) (fun w c b' _ hc => ?_) fun _ _ _ _ t => ⟨_, rfl⟩)
  · rw [Graph.addInline, on_bind_of_ok (on_get g), attributeAt, hnode]
    rfl
  · rw [hv.name]
    exact hc.addEntry h _ _ _ (.ok (.inline hx hnode hv))

/-- An attribute is made on the spot. -/
theorem agree_newInline (name : String) (text : Option String) (range : Bounds)
    {f : Nat × Occurrence → Work α} {k : Option DataType → Occurrence → Building δ}
    (hf : ∀ {g' x v type} o, g'.Shows s → g'.At s n p → g'.Loose x → g'.attributes[x]? = some v →
      g'.ShowsAttribute v { name, type } → Agree (Attempt.on (f (x, o)) g')
        (Attempt.on (k type o) s)) :
    Agree (Attempt.on (newInline n name text range >>= f) g) (Attempt.on (do
      let type ← liftM (DataType.read? p text)
      let o ← liftM (Occurrence.make range.1 range.2)
      k type o) s) := by
  rw [newInline, bind_assoc]
  cases text with
  | none =>
      refine .after rfl ?_
      rw [bind_assoc]
      refine .range (k := fun o => k none o) h fun o => ?_
      rw [bind_assoc]
      refine .after rfl ?_
      have hbegins : g.Begins { g with attributes := g.attributes ++ [{ name }] } :=
        { attributes := List.prefix_append _ _ }
      exact hf o (h.of_nodes hbegins rfl rfl) ⟨hp.placed, hp.position⟩ (h.loose (Nat.le_refl _))
        List.getElem?_concat_length ⟨rfl, .none⟩
  | some text =>
      rw [DataType.read?, map_eq_pure_bind, buildTypeOf?, bind_assoc, buildTypeOf, bind_assoc]
      refine .get ?_
      rw [bind_assoc]
      refine .liftThen h (h.readType hp text) fun t u _ ht => .after rfl (.after rfl ?_)
      rw [bind_assoc]
      refine .range (k := fun o => k (some u) o) (h.of_nodes {} rfl rfl) fun o => ?_
      rw [bind_assoc]
      refine .after rfl ?_
      rw [bind_assoc]
      refine .after (on_assignType_new g name t) ?_
      have hbegins : g.Begins { g with
          types := g.types ++ [t]
          attributes := g.attributes ++ [{ name, type := some t }] } :=
        { attributes := List.prefix_append _ _ }
      exact hf o (h.of_nodes hbegins rfl rfl) ⟨hp.placed, hp.position⟩ (h.loose (Nat.le_refl _))
        List.getElem?_concat_length ⟨rfl, .some (ht.mono (hbegins.keeps rfl))⟩

/-- An attribute that is made on the spot. -/
theorem agree_addInlineEntry (name : String) (text : Option String) (range : Bounds) :
    Agree (Attempt.on ((Action.addInlineEntry name text range).callIn n) g)
      (Attempt.on ((Action.addInlineEntry name text range).perform p) s) :=
  agree_newInline h hp name text range fun o hmade hp' hx hnode hv =>
    agree_addInline hmade hp' hx hnode hv o

omit hp

/-- The root by its name. -/
theorem agree_setRoot (name : String) :
    Agree (Attempt.on ((Action.setRoot name).callIn n) g)
      (Attempt.on ((Action.setRoot name).perform p) s) := by
  have htop : g.At s 0 (.top s.definitions) := ⟨rfl, _, h.top, rfl⟩
  refine .get (.getSchema (.liftThen h (htop.found (h.element? htop name)) ?_))
  rintro x ⟨q, e⟩ hfound ⟨-, m, hm, hx, -⟩
  obtain ⟨r, hr, hpath⟩ := hm.position
  have hq : q = .top s.definitions := by
    obtain ⟨f, -, heq⟩ := Option.map_eq_some_iff.mp (Place.found_eq_ok.mp hfound)
    exact (Prod.mk.inj heq).1.symm
  subst hq
  obtain rfl := h.eq_zero hr hpath
  exact .ok (h.withRoot hx)

/-- The root that is the only element. -/
theorem agree_setDefaultRoot :
    Agree (Attempt.on (Action.setDefaultRoot.callIn n) g)
      (Attempt.on (Action.setDefaultRoot.perform p) s) := by
  refine .get (.getSchema (.lift h h.onlyElement ?_))
  rintro x t - ⟨name, hx, rfl⟩
  exact .ok (h.withRoot hx)

end Actions

/-! ## Commands -/

/-- An action is done alike on a schema and on a graph that shows it. -/
theorem agree_action (h : g.Shows s) (hp : g.At s n p) (a : Action) :
    Agree (Attempt.on (a.callIn n) g) (Attempt.on (a.perform p) s) := by
  cases a with
  | addEnum name labels => exact agree_addEnum h hp name labels
  | addReserved name kind => exact agree_addReserved h hp name kind
  | add c name => exact agree_add h hp c name
  | addStructValue struct name optional base nullable =>
      exact agree_addStructValue h hp struct name optional base nullable
  | setType name base nullable range arrayNullable =>
      exact agree_setType h hp name base nullable range arrayNullable
  | readType text => exact agree_readType h hp text
  | setContent kind => exact agree_setContent h hp kind
  | addElementEntry name range => exact agree_addElementEntry h hp name range
  | addAttributeEntry name range => exact agree_addAttributeEntry h hp name range
  | addInlineEntry name text range => exact agree_addInlineEntry h hp name text range
  | setRoot name => exact agree_setRoot h name
  | setDefaultRoot => exact agree_setDefaultRoot h

/-- A command is carried out alike on a schema and on a graph that shows it. -/
theorem agree_command (h : g.Shows s) (c : Command) :
    Agree (Attempt.on c.call g) (Attempt.on c.perform s) :=
  .get (.getSchema (.lift h (h.place c.route) fun _ _ _ hp => agree_action h hp c.action))

/-- In any case the graph shows the schema. -/
theorem Agree.shows {o : Except Error α × Graph} {r : Except Error β × Schema} (h : Agree o r) :
    o.2.Shows r.2 := by
  cases h with
  | ok shows => exact shows
  | error e shows => exact shows

theorem items_empty (n : Nat) (c : Category) : Scopes.items ({} : Graph).scopes n c = [] := by
  cases n with
  | zero => cases c <;> rfl
  | succ n => exact Scopes.items_eq_nil (Nat.le_add_left 1 n)

/-- The empty graph shows the empty schema. -/
theorem shows_empty : Shows {} {} := by
  have hzero {n : Nat} {r : Position} (hr : ({} : Graph).position? n = some r) : n = 0 := by
    obtain ⟨node, hnode, -⟩ := at?_of_position? hr
    exact Nat.lt_one_iff.mp (Scopes.lt_of_at? hnode)
  refine ⟨wired_empty, rfl, fun n r hr hn => absurd (hzero hr) hn, ?_, ?_, .none⟩
  · intro n r hr
    obtain rfl := hzero hr
    cases hr
    refine ⟨_, rfl, fun c => ?_⟩
    rw [items_empty, Scope.items_shallow, Scope.items_empty]
    exact .nil
  · intro n m c key name x hn
    rw [Registers, items_empty] at hn
    cases hn

/-! ## Runs -/

/-- After every run of commands the graph shows the schema. -/
theorem Shows.callAll (h : g.Shows s) (cs : List Command) :
    (g.callAll cs).Shows (s.runAll cs) := by
  induction cs generalizing g s with
  | nil => exact h
  | cons c cs ih => exact ih (agree_command h c).shows

/-- What the computation leaves is left by calls. -/
def ByCalls (x : Work α) : Prop := ∀ g : Graph, ∃ cs, (x.on g).2 = g.runAll cs

namespace ByCalls

variable {x : Work α} {f : α → Work β}

/-- A call by itself, whatever becomes of its result. -/
theorem of_perform {c : Call} {k : α → Option Nat} (h : c.perform = do return k (← x)) :
    ByCalls x := by
  intro g
  refine ⟨[c], ?_⟩
  rw [runAll_cons, h]
  rcases hx : x.on g with ⟨e | a, t⟩
  · rw [on_bind_of_error hx]
    rfl
  · rw [on_bind_of_ok hx]
    rfl

theorem of_looks (h : x.Looks) : ByCalls x := fun g => ⟨[], h g⟩

/-- One after the other. -/
theorem bind (hx : ByCalls x) (hf : ∀ a, ByCalls (f a)) : ByCalls (x >>= f) := by
  intro g
  obtain ⟨cs, hcs⟩ := hx g
  rcases hon : x.on g with ⟨e | a, t⟩
  · exact ⟨cs, by rw [← hcs, on_bind_of_error hon, hon]⟩
  · obtain ⟨ds, hds⟩ := hf a t
    refine ⟨cs ++ ds, ?_⟩
    rw [on_bind_of_ok hon, hds, runAll_append, ← hcs, hon]

/-- Looking comes before calls. -/
theorem look (h : x.Looks) (hf : ∀ a, ByCalls (f a)) : ByCalls (x >>= f) := (of_looks h).bind hf

end ByCalls

/-- An attribute is made on the spot by up to three calls. -/
theorem byCalls_newInline (n : Nat) (name : String) (text : Option String) (range : Bounds) :
    ByCalls (newInline n name text range) := by
  have htype : ByCalls (buildTypeOf? n text) := by
    cases text with
    | none => exact .of_looks fun _ => rfl
    | some text =>
        exact .bind (.of_perform (c := .buildTypeOf n text) rfl) fun _ => .of_looks fun _ => rfl
  refine .bind htype fun type => .look (fun _ => rfl) fun o => ?_
  refine .bind (.of_perform (c := .newAttribute name) rfl) fun a => ?_
  have hassign : ByCalls (assignType? a type) := by
    cases type with
    | none => exact .of_looks fun _ => rfl
    | some t => exact .of_perform (c := .assignType a t) rfl
  exact .bind hassign fun _ => .of_looks fun _ => rfl

/-- An action is done by calls. -/
theorem byCalls_callIn (n : Nat) (a : Action) : ByCalls (a.callIn n) := by
  cases a with
  | addEnum name labels =>
      exact .bind (.of_perform (c := .addEnum n name labels) rfl) fun _ => .of_looks fun _ => rfl
  | addReserved name kind =>
      refine .bind (.of_perform (c := .newReserved name kind) rfl) fun x => ?_
      exact .bind (.of_perform (c := .addExisting n .valueType name x) rfl) fun _ =>
        .of_looks fun _ => rfl
  | add c name => exact .bind (.of_perform (c := .add n c name) rfl) fun _ => .of_looks fun _ => rfl
  | addStructValue struct name optional base nullable =>
      refine .look looks_get fun _ => .look (looks_lift _) fun d => ?_
      refine .look looks_get fun _ => .look (looks_lift _) fun offer => ?_
      exact .of_perform (c := .addValue d name optional offer nullable) rfl
  | setType name base nullable range arrayNullable =>
      refine .look looks_get fun _ => .look (looks_lift _) fun offer => ?_
      refine .look (fun _ => rfl) fun range => ?_
      refine .bind (.of_perform (c := .buildType offer nullable range arrayNullable) rfl) ?_
      intro t
      refine .look looks_get fun _ => .look (looks_lift _) fun x => ?_
      exact .of_perform (c := .assignType x t) rfl
  | readType text =>
      exact .bind (.of_perform (c := .buildTypeOf n text) rfl) fun _ => .of_looks fun _ => rfl
  | setContent kind =>
      refine .look looks_get fun _ => .look (looks_lift _) fun e => ?_
      exact .of_perform (c := .setContent e kind) rfl
  | addElementEntry name range =>
      refine .look (fun _ => rfl) fun o => .look looks_get fun _ => .look (looks_lift _) fun e => ?_
      exact .of_perform (c := .addElement e name o) rfl
  | addAttributeEntry name range =>
      refine .look (fun _ => rfl) fun o => .look looks_get fun _ => .look (looks_lift _) fun e => ?_
      exact .of_perform (c := .addAttribute e name o) rfl
  | addInlineEntry name text range =>
      refine .bind (byCalls_newInline n name text range) ?_
      rintro ⟨x, o⟩
      refine .look looks_get fun _ => .look (looks_lift _) fun e => ?_
      exact .of_perform (c := .addInline e x o) rfl
  | setRoot name => exact .of_perform (c := .setRoot name) rfl
  | setDefaultRoot => exact .of_perform (c := .setDefaultRoot) rfl

/-- A command is carried out by calls. -/
theorem byCalls_call (c : Command) : ByCalls c.call :=
  .look looks_get fun _ => .look (looks_lift _) fun n => byCalls_callIn n c.action

/-- A run of commands is a run of calls. -/
theorem exists_runAll_eq_callAll (g : Graph) (cs : List Command) :
    ∃ calls, g.runAll calls = g.callAll cs := by
  induction cs generalizing g with
  | nil => exact ⟨[], rfl⟩
  | cons c cs ih =>
      obtain ⟨front, hfront⟩ := byCalls_call c g
      obtain ⟨back, hback⟩ := ih (c.call.on g).2
      refine ⟨front ++ back, ?_⟩
      rw [runAll_append, ← hfront, hback]
      rfl

/-- For every run of commands there is a run of calls that builds a graph which shows the schema.
Each further command then succeeds on both or fails on both for the same reason, and the graph that
it leaves shows the schema that it leaves. -/
theorem exists_runAll_shows (cs : List Command) :
    ∃ calls, (runAll {} calls).Shows (Schema.runAll {} cs) ∧
      ∀ c : Command, Agree (c.call.on (runAll {} calls)) (c.perform.on (Schema.runAll {} cs)) := by
  obtain ⟨calls, hcalls⟩ := exists_runAll_eq_callAll {} cs
  have hshows := shows_empty.callAll cs
  rw [← hcalls] at hshows
  exact ⟨calls, hshows, agree_command hshows⟩

end Graph

end SmlSchema
