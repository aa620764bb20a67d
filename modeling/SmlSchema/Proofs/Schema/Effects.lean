import SmlSchema.Proofs.Schema.Levels

/-! # What a command does

A command that succeeds leaves the schema as it is, sets the root, or changes one scope in one of a
few ways, each under its own condition. Whatever is kept by these changes is kept by every run of
commands, since a command that fails changes nothing.
-/

namespace SmlSchema

open Attempt Building

/-- The action gives the element at the place the content `new`, where it had `old` before. -/
inductive Action.ChangesContent (p : Place) : Action → Option Content → Content → Prop
  | start : ChangesContent p (.setContent none) none (.unordered [] [])
  | element {name : String} {range : Bounds} {o : Occurrence} {attributes : List AttributeEntry}
      {elements : List ElementEntry} {q : Place} {e : ElementDef}
      (ranged : Occurrence.make range.1 range.2 = .ok o) (new : name ∉ elements.map (·.name))
      (found : p.element? name = some (q, e)) :
      ChangesContent p (.addElementEntry name range) (some (.unordered attributes elements))
        (.unordered attributes (elements ++ [⟨q.path, name, o⟩]))
  | attribute {name : String} {range : Bounds} {o : Occurrence} {attributes : List AttributeEntry}
      {elements : List ElementEntry} {q : Place} {a : AttributeDef}
      (ranged : Occurrence.make range.1 range.2 = .ok o) (new : name ∉ attributes.map (·.name))
      (found : p.attribute? name = some (q, a)) :
      ChangesContent p (.addAttributeEntry name range) (some (.unordered attributes elements))
        (.unordered (attributes ++ [.defined q.path name o]) elements)
  | inline {name : String} {text : Option String} {type : Option DataType} {range : Bounds}
      {o : Occurrence} {attributes : List AttributeEntry} {elements : List ElementEntry}
      (ranged : Occurrence.make range.1 range.2 = .ok o) (new : name ∉ attributes.map (·.name))
      (read : DataType.read? p text = .ok type) :
      ChangesContent p (.addInlineEntry name text range) (some (.unordered attributes elements))
        (.unordered (attributes ++ [.inline { name, type } o]) elements)

/-- The action at the place makes the scope at the path `d'`, where it was `d` before. -/
inductive Action.Changes (p : Place) : Action → Path → Scope → Scope → Prop
  | addEnum {name : String} {labels : List String} {d : Scope} (some_label : labels ≠ [])
      (nodup : labels.Nodup) (new : name ∉ d.names .valueType) :
      Changes p (.addEnum name labels) p.path d
        { d with valueTypes := d.valueTypes ++ [.enum name labels] }
  | addReserved {name : String} {kind : ReservedKind} {d : Scope}
      (new : name ∉ d.names .valueType) :
      Changes p (.addReserved name kind) p.path d
        { d with valueTypes := d.valueTypes ++ [.reserved name kind] }
  | addStruct {name : String} {d : Scope} (new : name ∉ d.names .struct) :
      Changes p (.add .struct name) p.path d { d with structs := d.structs ++ [{ name }] }
  | addAttribute {name : String} {d : Scope} (new : name ∉ d.names .attribute) :
      Changes p (.add .attribute name) p.path d
        { d with attributes := d.attributes ++ [{ name }] }
  | addElement {name : String} {d : Scope} (new : name ∉ d.names .element) :
      Changes p (.add .element name) p.path d { d with elements := d.elements ++ [{ name }] }
  | addStructValue {struct name : String} {optional nullable : Bool} {base : BaseName}
      {c : Candidate} {d : Scope} {q : Place} {r : Struct} {v : StructValue}
      (found : p.struct? struct = some (q, r)) (defined : d.struct? struct = some r)
      (resolved : base.resolve p = .ok c) (made : r.newValue name optional c nullable = .ok v) :
      Changes p (.addStructValue struct name optional base nullable) q.path d
        (d.modifyStruct struct (·.push v))
  | setType {name : String} {base : BaseName} {nullable arrayNullable : Bool}
      {bounds : Option Bounds} {c : Candidate} {range : Option Occurrence} {t : DataType}
      {d : Scope} {q : Place} (resolved : base.resolve p = .ok c)
      (ranged : Bounds.range? bounds = .ok range)
      (made : DataType.make c nullable range arrayNullable = .ok t)
      (found : p.attribute? name = some (q, { name }))
      (defined : d.attribute? name = some { name }) :
      Changes p (.setType name base nullable bounds arrayNullable) q.path d
        (d.modifyAttribute name fun _ => { name, type := some t })
  | content {a : Action} {outer : Place} {name : String} {inner d : Scope} {old : Option Content}
      {new : Content} (at_place : p = .within outer name inner)
      (defined : d.element? name = some { name, content := old })
      (changed : a.ChangesContent p old new) :
      Changes p a outer.path d (d.modifyElement name fun _ => { name, content := some new })

/-- What the action at the place makes of the schema if it succeeds. -/
inductive Action.Effect (s : Schema) (p : Place) : Action → Schema → Prop
  | read {text : String} : Effect s p (.readType text) s
  | root {name : String} (defined : name ∈ s.definitions.names .element) :
      Effect s p (.setRoot name) { s with root := some name }
  | defaultRoot {name : String} (only : s.definitions.names .element = [name]) :
      Effect s p .setDefaultRoot { s with root := some name }
  | change {a : Action} {t : Schema} {path : Path} {d d' : Scope}
      (changes : a.Changes p path d d') (changed : s.ChangedAt t path d d') : Effect s p a t

/-! ## The parts of an action -/

/-- A reserved type is added under a free name. -/
theorem Scope.addReserved_eq_ok {s t : Scope} {path : Path} {name : String} {kind : ReservedKind} :
    s.addValueType path (.reserved name kind) = .ok t ↔
      name ∉ s.names .valueType ∧
        t = { s with valueTypes := s.valueTypes ++ [.reserved name kind] } := by
  rw [addValueType, bind_eq_ok]
  constructor
  · rintro ⟨u, hfree, ht⟩
    cases ht
    exact ⟨checkFree_eq_ok.mp hfree, rfl⟩
  · rintro ⟨hfree, rfl⟩
    exact ⟨(), checkFree_eq_ok.mpr hfree, rfl⟩

/-- A type is set where there is none yet. -/
theorem AttributeDef.setType_eq_ok {a b : AttributeDef} {t : DataType} :
    a.setType t = .ok b ↔ a.type = none ∧ b = { a with type := some t } := by
  unfold setType
  cases h : a.type with
  | none => simp [eq_comm]
  | some _ => simp

/-- Content is set where there is none yet, and only unordered content. -/
theorem ElementDef.setContent_eq_ok {e f : ElementDef} {kind : Option ReservedContent} :
    e.setContent kind = .ok f ↔
      kind = none ∧ e.content = none ∧ f = { e with content := some (.unordered [] []) } := by
  unfold setContent
  cases h : e.content with
  | none => cases kind <;> simp [eq_comm]
  | some _ => simp

namespace Place

variable {s t : Schema} {p q : Place} {name : String} {d : Scope}

/-- The scope in which something is found lies in the schema, if the scope from which it was looked
for does. -/
theorem placeAt?_of_nearest? {f : Scope → Option α} {a : α} (hp : s.placeAt? p.path = some p)
    (h : p.nearest? f = some (q, a)) : s.placeAt? q.path = some q :=
  Schema.placeAt?_of_mem_chain hp (mem_chain_of_nearest? h)

theorem structAt?_of_struct? {r : Struct} (hp : s.placeAt? p.path = some p)
    (h : p.struct? name = some (q, r)) : s.structAt? q.path name = some r := by
  rw [Schema.structAt?, Schema.scopeAt?_of_placeAt? (placeAt?_of_nearest? hp h), Option.bind_some]
  exact nearest?_eq_some h

/-- A change that leaves the elements alone is a change at one path. -/
theorem changedAt_leaves (hp : s.placeAt? p.path = some p) (hd : d.elements = p.scope.elements) :
    s.ChangedAt (s.replace p d) p.path p.scope.shallow d.shallow := by
  refine Schema.changedAt_replace hp fun name => .inl ?_
  rw [Scope.element?, Scope.element?, hd]

/-- A further element is a change at one path. -/
theorem changedAt_addElement (hp : s.placeAt? p.path = some p) (name : String) :
    s.ChangedAt (s.replace p { p.scope with elements := p.scope.elements ++ [{ name }] }) p.path
      p.scope.shallow
      { p.scope.shallow with elements := p.scope.shallow.elements ++ [{ name }] } := by
  have hshallow : Scope.shallow { p.scope with elements := p.scope.elements ++ [{ name }] } =
      { p.scope.shallow with elements := p.scope.shallow.elements ++ [{ name }] } := by
    rw [Scope.shallow, List.map_append]
    rfl
  rw [← hshallow]
  refine Schema.changedAt_replace hp fun other => ?_
  rw [Scope.element?, Scope.element?, List.find?_append]
  cases hother : p.scope.elements.find? (·.name == other) with
  | some e => exact .inl rfl
  | none =>
      by_cases hname : name = other
      · exact .inr ⟨rfl, by simp [hname, ElementDef.scope]⟩
      · exact .inl (by simp [hname])

/-- New content of an element is a change of the scope around. -/
theorem changedAt_content {outer : Place} {e : ElementDef} {c : Content}
    (hp : s.placeAt? outer.path = some outer) (he : outer.scope.element? name = some e) :
    s.ChangedAt
      (s.replace outer (outer.scope.modifyElement name fun _ => { e with content := some c }))
      outer.path outer.scope.shallow
      (outer.scope.shallow.modifyElement name fun _ => { name, content := some c }) := by
  obtain ⟨-, rfl⟩ := mem_of_find?_name he
  have hshallow := outer.scope.shallow_modifyElement e.name { e with content := some c }
  change _ = outer.scope.shallow.modifyElement e.name fun _ =>
    { name := e.name, content := some c } at hshallow
  rw [← hshallow]
  refine Schema.changedAt_replace hp fun other => .inl ?_
  rw [Scope.element?_modifyElement (f := fun _ => { e with content := some c }) fun _ _ => rfl]
  cases hother : outer.scope.element? other with
  | none => rfl
  | some f =>
      rw [Option.map_some, Option.map_some, Option.map_some]
      split
      · -- Both are what the scope has under the name.
        rename_i hname
        obtain ⟨-, rfl⟩ := mem_of_find?_name hother
        rw [show f.name = e.name from hname, he] at hother
        cases hother
        rfl
      · rfl

/-- The element that owns the scope, in a place of the schema. -/
theorem owner_found {outer : Place} {e : ElementDef}
    (hp : s.placeAt? (name :: outer.path) = some (.within outer name d))
    (he : outer.getElement name = .ok (q, e)) :
    s.placeAt? outer.path = some outer ∧ outer.scope.element? name = some e := by
  obtain ⟨r, f, hr, hf, heq⟩ := Schema.placeAt?_cons hp
  cases heq
  have hfound : outer.element? name = some (outer, f) := nearest?_of_scope hf
  rw [getElement, hfound] at he
  cases he
  exact ⟨hr, hf⟩

end Place

/-! ## Actions -/

namespace Action

variable {s t : Schema} {p : Place} {a : Action}

/-- An action that changes the owner of a scope changes its content. -/
theorem Effect.of_changeOwner {part : String} {change : ElementDef → Except Error ElementDef}
    {u : Unit} (hp : s.placeAt? p.path = some p) (h : (p.changeOwner part change).on s = (.ok u, t))
    (hchange : ∀ e f, change e = .ok f →
      ∃ c, f = { e with content := some c } ∧ a.ChangesContent p e.content c) :
    a.Effect s p t := by
  obtain ⟨outer, name, d, q, e, f, rfl, he, hf, rfl⟩ := Place.changeOwner_on_eq_ok.mp h
  obtain ⟨c, rfl, hc⟩ := hchange e f hf
  obtain ⟨houter, hfound⟩ := Place.owner_found hp he
  obtain ⟨-, rfl⟩ := mem_of_find?_name hfound
  refine .change (.content rfl ?_ hc) (Place.changedAt_content houter hfound)
  rw [Scope.element?_shallow, hfound]
  rfl

/-- A change of content has the effect of the action. -/
theorem Effect.of_changeContent {part : String} {change : String → Content → Except Error Content}
    {u : Unit} (hp : s.placeAt? p.path = some p)
    (h : (p.changeContent part change).on s = (.ok u, t))
    (hchange : ∀ owner c c', change owner c = .ok c' → a.ChangesContent p (some c) c') :
    a.Effect s p t := by
  refine .of_changeOwner hp h fun e f hf => ?_
  split at hf
  · cases hf
  · rename_i c hc
    obtain ⟨c', hc', hf⟩ := bind_eq_ok.mp hf
    cases hf
    rw [hc]
    exact ⟨c', rfl, hchange _ c c' hc'⟩

/-- An action that succeeds has one of the effects. -/
theorem effect_of_ok {x : Product} (hp : s.placeAt? p.path = some p)
    (h : (a.perform p).on s = (.ok x, t)) : a.Effect s p t := by
  cases a with
  | addEnum name labels =>
      obtain ⟨d, hd, h⟩ := on_lift_bind_eq_ok.mp h
      cases h
      obtain ⟨hsome, hnodup, hnew, rfl⟩ := Scope.addEnum_eq_ok.mp hd
      exact .change (.addEnum hsome hnodup (by rwa [Scope.names_shallow]))
        (Place.changedAt_leaves hp rfl)
  | addReserved name kind =>
      obtain ⟨d, hd, h⟩ := on_lift_bind_eq_ok.mp h
      cases h
      obtain ⟨hnew, rfl⟩ := Scope.addReserved_eq_ok.mp hd
      exact .change (.addReserved (by rwa [Scope.names_shallow])) (Place.changedAt_leaves hp rfl)
  | add category name =>
      obtain ⟨d, hd, h⟩ := on_lift_bind_eq_ok.mp h
      cases h
      obtain ⟨hnew, hd⟩ := Scope.add_eq_ok.mp hd
      rw [← Scope.names_shallow] at hnew
      cases category with
      | valueType => exact hd.elim
      | struct =>
          subst hd
          exact .change (.addStruct hnew) (Place.changedAt_leaves hp rfl)
      | «attribute» =>
          subst hd
          exact .change (.addAttribute hnew) (Place.changedAt_leaves hp rfl)
      | element =>
          subst hd
          exact .change (.addElement hnew) (Place.changedAt_addElement hp name)
  | addStructValue struct name optional base nullable =>
      obtain ⟨⟨q, r⟩, hfound, h⟩ := on_lift_bind_eq_ok.mp h
      obtain ⟨c, hc, h⟩ := on_lift_bind_eq_ok.mp h
      obtain ⟨v, hv, h⟩ := on_lift_bind_eq_ok.mp h
      cases h
      have hr := Place.found_eq_ok.mp hfound
      have hdefined : q.scope.shallow.struct? struct = some r := Place.nearest?_eq_some hr
      exact .change (.addStructValue hr hdefined hc hv)
        (Place.changedAt_leaves (Place.placeAt?_of_nearest? hp hr) rfl)
  | setType name base nullable bounds arrayNullable =>
      obtain ⟨c, hc, h⟩ := on_lift_bind_eq_ok.mp h
      obtain ⟨range, hrange, h⟩ := on_lift_range_bind_eq_ok.mp h
      obtain ⟨type, htype, h⟩ := on_lift_bind_eq_ok.mp h
      obtain ⟨⟨q, b⟩, hfound, h⟩ := on_lift_bind_eq_ok.mp h
      obtain ⟨b', hset, h⟩ := on_lift_bind_eq_ok.mp h
      cases h
      have hb := Place.found_eq_ok.mp hfound
      have hdefined : q.scope.shallow.attribute? name = some b := Place.nearest?_eq_some hb
      obtain ⟨hnone, rfl⟩ := AttributeDef.setType_eq_ok.mp hset
      obtain ⟨-, rfl⟩ := mem_of_find?_name hdefined
      -- The type was still to be set, so that the definition is a bare name.
      have hempty : b = { name := b.name } := by rw [← hnone]
      rw [hempty] at hb hdefined
      exact .change (.setType hc hrange htype hb hdefined)
        (Place.changedAt_leaves (Place.placeAt?_of_nearest? hp hb) rfl)
  | readType text =>
      obtain ⟨type, -, h⟩ := on_lift_bind_eq_ok.mp h
      cases h
      exact .read
  | setContent kind =>
      obtain ⟨_, u, h, hu⟩ := on_bind_eq_ok.mp h
      cases hu
      refine .of_changeOwner hp h fun e f hf => ?_
      obtain ⟨rfl, hnone, rfl⟩ := ElementDef.setContent_eq_ok.mp hf
      rw [hnone]
      exact ⟨_, rfl, .start⟩
  | addElementEntry name range =>
      obtain ⟨o, ho, h⟩ := on_lift_range_bind_eq_ok.mp h
      obtain ⟨_, u, h, hu⟩ := on_bind_eq_ok.mp h
      cases hu
      refine .of_changeContent hp h fun owner c c' hadd => ?_
      cases c with
      | reserved kind => cases hadd
      | unordered attributes elements =>
          obtain ⟨hnew, r, f, hfound, rfl⟩ := Content.addElement_eq_ok.mp hadd
          exact .element ho hnew hfound
  | addAttributeEntry name range =>
      obtain ⟨o, ho, h⟩ := on_lift_range_bind_eq_ok.mp h
      obtain ⟨_, u, h, hu⟩ := on_bind_eq_ok.mp h
      obtain ⟨r, -, hu⟩ := on_lift_bind_eq_ok.mp hu
      cases hu
      refine .of_changeContent hp h fun owner c c' hadd => ?_
      cases c with
      | reserved kind => cases hadd
      | unordered attributes elements =>
          obtain ⟨hnew, r, b, hfound, rfl⟩ := Content.addAttribute_eq_ok.mp hadd
          exact .attribute ho hnew hfound
  | addInlineEntry name text range =>
      obtain ⟨type, htype, h⟩ := on_lift_bind_eq_ok.mp h
      obtain ⟨o, ho, h⟩ := on_lift_range_bind_eq_ok.mp h
      obtain ⟨_, u, h, hu⟩ := on_bind_eq_ok.mp h
      cases hu
      refine .of_changeContent hp h fun owner c c' hadd => ?_
      cases c with
      | reserved kind => cases hadd
      | unordered attributes elements =>
          obtain ⟨hnew, rfl⟩ := Content.addInline_eq_ok.mp hadd
          exact .inline ho hnew htype
  | setRoot name =>
      obtain ⟨_, u, hget, h⟩ := on_bind_eq_ok.mp h
      cases hget
      obtain ⟨u, hset, h⟩ := on_lift_bind_eq_ok.mp h
      cases h
      obtain ⟨hname, rfl⟩ := Schema.setRoot_eq_ok.mp hset
      exact .root hname
  | setDefaultRoot =>
      obtain ⟨_, u, hget, h⟩ := on_bind_eq_ok.mp h
      cases hget
      obtain ⟨u, hset, h⟩ := on_lift_bind_eq_ok.mp h
      obtain ⟨_, v, hv, h⟩ := on_bind_eq_ok.mp h
      cases hv
      obtain ⟨_, v, hget, h⟩ := on_bind_eq_ok.mp h
      cases hget
      obtain ⟨name, -, h⟩ := on_lift_bind_eq_ok.mp h
      cases h
      obtain ⟨e, he, rfl⟩ := Schema.setDefaultRoot_eq_ok.mp hset
      exact .defaultRoot (by rw [Scope.names, he, List.map_singleton])

/-- A change keeps the names of each kind or adds one that is new. -/
theorem Changes.names {path : Path} {d d' : Scope} (h : a.Changes p path d d')
    (category : Category) :
    d'.names category = d.names category ∨
      ∃ name, name ∉ d.names category ∧ d'.names category = d.names category ++ [name] := by
  cases h with
  | @addEnum name _ _ _ _ new =>
      cases category with
      | valueType => exact .inr ⟨name, new, List.map_append⟩
      | _ => exact .inl rfl
  | @addReserved name _ _ new =>
      cases category with
      | valueType => exact .inr ⟨name, new, List.map_append⟩
      | _ => exact .inl rfl
  | @addStruct name _ new =>
      cases category with
      | struct => exact .inr ⟨name, new, List.map_append⟩
      | _ => exact .inl rfl
  | @addAttribute name _ new =>
      cases category with
      | «attribute» => exact .inr ⟨name, new, List.map_append⟩
      | _ => exact .inl rfl
  | @addElement name _ new =>
      cases category with
      | element => exact .inr ⟨name, new, List.map_append⟩
      | _ => exact .inl rfl
  | addStructValue => exact .inl (Scope.names_modifyStruct fun _ h => h)
  | setType => exact .inl (Scope.names_modifyAttribute fun _ _ => rfl)
  | content => exact .inl (Scope.names_modifyElement fun _ _ => rfl)

end Action

/-! ## Commands and runs -/

/-- A command fails and changes nothing, or its action has its effect at the place that the route
leads to. -/
theorem Command.effect (c : Command) (s : Schema) :
    (∃ e, c.perform.on s = (.error e, s)) ∨
      ∃ p x t, s.place c.route = .ok p ∧ s.placeAt? p.path = some p ∧
        c.perform.on s = (.ok x, t) ∧ c.action.Effect s p t := by
  rcases (c.atomic s).on_eq with ⟨x, t, -, h⟩ | ⟨e, -, h⟩
  · obtain ⟨_, u, hget, hperform⟩ := on_bind_eq_ok.mp h
    cases hget
    obtain ⟨p, hp, hperform⟩ := on_lift_bind_eq_ok.mp hperform
    have hplace := Schema.placeAt?_of_place hp
    exact .inr ⟨p, x, t, hp, hplace, h, Action.effect_of_ok hplace hperform⟩
  · exact .inl ⟨e, h⟩

/-- What setting the root and every change of a scope keep holds after every run. -/
theorem Schema.runAll_invariant {P : Schema → Prop}
    (hroot : ∀ s name, P s → name ∈ s.definitions.names .element → P { s with root := some name })
    (hchange : ∀ {s t p a path d d'}, P s → s.placeAt? p.path = some p →
      Action.Changes p a path d d' → s.ChangedAt t path d d' → P t)
    {s : Schema} (hs : P s) (cs : List Command) : P (s.runAll cs) := by
  induction cs generalizing s with
  | nil => exact hs
  | cons c cs ih =>
      rw [runAll_cons]
      refine ih ?_
      rcases c.effect s with ⟨e, h⟩ | ⟨p, x, t, -, hp, h, heffect⟩
      · rwa [h]
      · rw [h]
        generalize c.action = a at heffect
        cases heffect with
        | read => exact hs
        | root defined => exact hroot s _ hs defined
        | defaultRoot only => exact hroot s _ hs (only ▸ List.mem_singleton_self _)
        | change changes changed => exact hchange hs hp changes changed

end SmlSchema
