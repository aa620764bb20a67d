import SmlSchema.Proofs.Code.Readers
import SmlSchema.Proofs.Code.Totality

/-! # Generated loaders

The operation that loads an element checks its name and the names of its nodes, makes a record, and
fills one field for each entry of the content. It gives the record back exactly if the element
conforms to its definition.
-/

namespace SmlSchema

/-- A name of the list is met up to letter case. -/
theorem Element.hasName_map {α : Type} {xs : List α} {f : α → String} {name : String} :
    Element.hasName (xs.map f) name ↔ ∃ x ∈ xs, Text.sameName name (f x) := by
  simp only [hasName, List.any_map, List.any_eq_true, Function.comp_apply]
  refine exists_congr fun x => and_congr_right fun _ => ?_
  rw [Text.sameName, BEq.comm, Text.sameName]

/-! ## Ranges with a word -/

namespace Occurrence

variable {n : Nat}

theorem contains_required : required.Contains n ↔ n = 1 := by
  simp only [Contains, required, Option.some.injEq, forall_eq']
  omega

theorem contains_optional : optional.Contains n ↔ n ≤ 1 := by
  simp only [Contains, optional, Option.some.injEq, forall_eq', Nat.zero_le, true_and]

theorem contains_repeatedPlus : repeatedPlus.Contains n ↔ 1 ≤ n := by
  simp [Contains, repeatedPlus]

theorem contains_repeatedStar : repeatedStar.Contains n := by
  simp [Contains, repeatedStar]

end Occurrence

/-- A child is smaller than the element around it, so that loading it ends. -/
theorem sizeOf_lt_of_mem_elements {e child : Element} {name : String}
    (h : child ∈ e.elements name) : sizeOf child < sizeOf e := by
  have hnode := Element.mem_children.mp (Element.mem_elements.mp h).1
  have hlt := List.sizeOf_lt_of_mem hnode
  obtain ⟨tag, nodes⟩ := e
  obtain ⟨childTag, childNodes⟩ := child
  simp only [Element.toNode, Node.element.sizeOf_spec, Element.mk.sizeOf_spec] at hlt ⊢
  omega

namespace Code

/-! ## Nodes of an element

The library answers the same questions for child elements and for attributes.
-/

/-- The answers to questions about the nodes of one kind: all of them, and those of a name. -/
structure Answers {α : Type} (ask : String → List Value → Except Fault Value) (kind : NodeKind)
    (val : α → Value) (tag : α → String) (own : List α) (named : String → List α) : Prop where
  present : ∀ x, (val x).isPresent = true
  none : Decides (own = []) (fun _ => True) (ask ("assure_no_" ++ kind.word ++ "s") [])
  names : ∀ names, Decides (∀ x ∈ own, Element.hasName names (tag x)) (fun _ => True)
    (ask ("assure_" ++ kind.word ++ "_names") [.list (names.map .text)])
  required : ∀ name, Decides (Occurrence.required.Contains (named name).length)
    (fun v => ∃ x, named name = [x] ∧ v = val x) (ask ("required_" ++ kind.word) [.text name])
  optional : ∀ name, Decides (Occurrence.optional.Contains (named name).length)
    (fun v => ∃ r : Option α, named name = r.toList ∧ v = .ofOption val r)
    (ask ("optional_" ++ kind.word) [.text name])
  oneOrMore : ∀ name, Decides (Occurrence.repeatedPlus.Contains (named name).length)
    (· = .list ((named name).map val)) (ask ("one_or_more_" ++ kind.word ++ "s") [.text name])
  all : ∀ name, Decides (Occurrence.repeatedStar.Contains (named name).length)
    (· = .list ((named name).map val)) (ask ("" ++ kind.word ++ "s") [.text name])

section

variable {α : Type} {val : α → Value} (e : Element) (kind : NodeKind) (name : String) (xs : List α)

/-- Asking for the only node of a name succeeds if there is exactly one. -/
theorem decides_one :
    Decides (Occurrence.required.Contains xs.length) (fun v => ∃ x, xs = [x] ∧ v = val x)
      (do return val (← (e.one kind name xs : Except Violation α)) : Except Fault Value) := by
  have hiff : (∃ x, e.one kind name xs = .ok x) ↔ Occurrence.required.Contains xs.length := by
    simp only [Element.one_eq_ok, Occurrence.contains_required, List.length_eq_one_iff]
  refine ((Decides.lift (e.one kind name xs)).bind_ok fun x _ hx => ?_).congr hiff
  exact ⟨_, rfl, x, Element.one_eq_ok.mp hx, rfl⟩

/-- Asking for an optional node of a name succeeds if there is at most one. -/
theorem decides_atMostOne :
    Decides (Occurrence.optional.Contains xs.length)
      (fun v => ∃ r : Option α, xs = r.toList ∧ v = .ofOption val r)
      (do return .ofOption val (← (e.atMostOne kind name xs : Except Violation (Option α))) :
        Except Fault Value) := by
  have hiff : (∃ r, e.atMostOne kind name xs = .ok r) ↔
      Occurrence.optional.Contains xs.length := by
    simp only [Element.atMostOne_eq_ok, Occurrence.contains_optional]
    match xs with
    | [] => exact iff_of_true ⟨none, rfl⟩ (Nat.zero_le 1)
    | [x] => exact iff_of_true ⟨some x, rfl⟩ (Nat.le_refl 1)
    | x :: y :: xs =>
        refine iff_of_false ?_ (by simp)
        rintro ⟨r, hr⟩
        cases r with
        | none => cases hr
        | some z => cases hr
  refine ((Decides.lift (e.atMostOne kind name xs)).bind_ok fun r _ hr => ?_).congr hiff
  exact ⟨_, rfl, r, Element.atMostOne_eq_ok.mp hr, rfl⟩

/-- Asking for the nodes of a name succeeds if there is at least one. -/
theorem decides_oneOrMore :
    Decides (Occurrence.repeatedPlus.Contains xs.length) (· = .list (xs.map val))
      (do return .list ((← (e.oneOrMore kind name xs : Except Violation (List α))).map val) :
        Except Fault Value) := by
  have hiff : (∃ ys, e.oneOrMore kind name xs = .ok ys) ↔
      Occurrence.repeatedPlus.Contains xs.length := by
    simp only [Element.oneOrMore_eq_ok, Occurrence.contains_repeatedPlus, exists_and_left,
      exists_eq, and_true]
    exact List.length_pos_iff.symm
  refine ((Decides.lift (e.oneOrMore kind name xs)).bind_ok fun ys _ hys => ?_).congr hiff
  exact ⟨_, rfl, by rw [(Element.oneOrMore_eq_ok.mp hys).2]⟩

end

/-- Checks of the library leave the element as it is. -/
theorem decides_check {C : Prop} (e : Element) {check : Except Violation Unit}
    (h : ∀ u, check = .ok u ↔ C) :
    Decides C (fun _ => True) (do check; return .element e : Except Fault Value) :=
  ((Decides.lift check).bind_ok fun _ _ _ => ⟨_, rfl, trivial⟩).congr
    ⟨fun ⟨u, hu⟩ => (h u).mp hu, fun hC => ⟨(), (h ()).mpr hC⟩⟩

/-- A check of names decides what it checks. -/
theorem decides_checkNames {C : Prop} (e : Element) {check : List String → Except Violation Unit}
    {names : List String} (h : ∀ u, check names = .ok u ↔ C) :
    Decides C (fun _ => True)
      (do check (← (names.map Value.text).mapM Value.asText); return .element e :
        Except Fault Value) := by
  rw [Context.mapM_asText, ok_bind]
  exact decides_check e h

theorem answers_element (e : Element) :
    Answers (elementOperation e) .element .element Element.name e.children e.elements where
  present _ := rfl
  none := decides_check e fun _ => Element.assureNoElements_eq_ok
  names _ := decides_checkNames e fun _ => Element.assureElementNames_eq_ok
  required name := decides_one e .element name (e.elements name)
  optional name := decides_atMostOne e .element name (e.elements name)
  oneOrMore name := decides_oneOrMore e .element name (e.elements name)
  all _ := .of_eq_ok rfl Occurrence.contains_repeatedStar rfl

theorem answers_attribute (e : Element) :
    Answers (elementOperation e) .attribute .attribute Attribute.name e.ownAttributes
      e.attributes where
  present _ := rfl
  none := decides_check e fun _ => Element.assureNoAttributes_eq_ok
  names _ := decides_checkNames e fun _ => Element.assureAttributeNames_eq_ok
  required name := decides_one e .attribute name (e.attributes name)
  optional name := decides_atMostOne e .attribute name (e.attributes name)
  oneOrMore name := decides_oneOrMore e .attribute name (e.attributes name)
  all _ := .of_eq_ok rfl Occurrence.contains_repeatedStar rfl

/-! ## Fields of an element -/

/-- What the code that loads an element knows when it starts. -/
def elementLocals (e : Element) : Locals := [("element", .element e)]

theorem holds_elementLocals (e : Element) : Context.Holds (elementLocals e) (elementLocals e) := by
  intro x v h
  cases List.mem_singleton.mp h
  rfl

theorem bindAll_loadParameters (k : Context) (typeName : String) (body : List Statement)
    (e : Element) :
    k.bindAll (loadMethod typeName body).signature.parameters [.element e] =
      .ok (elementLocals e) := rfl

section

open Context

variable {α : Type} {k : Context} {type : String} {e : Element} {kind : NodeKind}
  {val : α → Value} {tag : α → String} {own : List α} {named : String → List α}
  {holder name : String} {load : Expr} {C : α → Prop} {c : FieldCode} {locals : Locals}
  {rest : List Field}

/-- All nodes of the kind have known names. -/
theorem decides_nameCheck
    (h : Answers (fun operation vs => k.call (.operation (.element e) operation) vs) kind val tag
      own named) (helement : locals.lookup "element" = some (.element e)) (names : List String) :
    Decides (∀ x ∈ own, Element.hasName names (tag x)) (Flow.Proceeds (· = locals))
      (k.run locals (nameCheck kind names)) := by
  cases names with
  | nil =>
      have hiff : own = [] ↔ ∀ x ∈ own, Element.hasName [] (tag x) := by
        simp [Element.hasName, List.eq_nil_iff_forall_not_mem]
      refine Decides.congr (decides_evaluate ?_) hiff
      rw [eval_invoke_element helement rfl]
      exact h.none
  | cons name names =>
      refine decides_evaluate ?_
      have harguments : k.evalAll locals [.literal (.list ((name :: names).map .string))] =
          .ok [.list ((name :: names).map .text)] := by
        rw [evalAll, eval_strings]
        rfl
      rw [eval_invoke_element helement harguments]
      exact h.names (name :: names)

/-- The expression that finds nodes decides what the operation of the element decides. -/
theorem eval_find {D : Prop} {S : Value → Prop} {operation : String}
    (h : Decides D S (k.call (.operation (.element e) operation) [.text name]))
    (hready : Ready (elementLocals e) type (AllNew (c.field :: rest)) locals) :
    Decides D S (k.eval locals (invoke elementVar operation [text name])) := by
  have helement := hready.holds "element" (.element e) (List.mem_singleton.mpr rfl)
  rwa [eval_invoke_element helement rfl]

/-- The field has a list, and the rest is as it was made. -/
def HasList (field : String) (rest : List Field) (fields : List (String × Value)) : Prop :=
  AllNew rest fields ∧ ∃ vs, fields.lookup field = some (.list vs)

/-- The name for a node is new. -/
theorem Context.Ready.hold {F : List (String × Value) → Prop}
    (hready : Ready (elementLocals e) type F locals) (hholder : holder ∉ ["element", "result"])
    (v : Value) : Ready (elementLocals e) type F ((holder, v) :: locals) := by
  simp only [List.mem_cons, List.not_mem_nil, or_false, not_or] at hholder
  exact hready.cons v hholder.2 fun h => hholder.1 (List.mem_singleton.mp h)

/-- A node that was found is loaded into the field. -/
theorem decides_fill (hholder : holder ∉ ["element", "result"])
    (hrest : c.field.name ∉ rest.map Field.name)
    (hready : Ready (elementLocals e) type (AllNew (c.field :: rest)) locals) (x : α)
    (hload : ∀ locals, locals.lookup holder = some (val x) →
      Decides (C x) (fun _ => True) (k.eval locals load)) :
    Decides (C x) (Flow.Proceeds (Ready (elementLocals e) type (AllNew rest)))
      (k.runAll ((holder, val x) :: locals)
        [.step (.assign (.attr resultVar c.field.name) load)]) :=
  decides_singleton (decides_assign_new (by simp [elementLocals])
    (hready.hold hholder (val x)) hrest (hload _ List.lookup_cons_self))

variable (hholder : holder ∉ ["element", "result"])
  (hload : ∀ x ∈ named name, ∀ locals, locals.lookup holder = some (val x) →
    Decides (C x) (fun _ => True) (k.eval locals load))

include hholder hload

/-- The list in the field grows with every node. -/
theorem fills_repeated {o : Occurrence} {operation : String}
    (hfind : Decides (o.Contains (named name).length) (· = .list ((named name).map val))
      (k.call (.operation (.element e) operation) [.text name]))
    (hdefault : c.field.default = .emptyList)
    (hstatements : c.statements =
      [.block (.forEach holder (invoke elementVar operation [text name]))
        [.step (.append (.attr resultVar c.field.name) load)]]) :
    Fills k (elementLocals e) type (o.Contains (named name).length ∧ ∀ x ∈ named name, C x) c := by
  intro rest locals hrest hready
  rw [hstatements]
  refine (decides_singleton (decides_forEach (eval_find hfind hready)
    (P := Ready (elementLocals e) type (HasList c.field.name rest)) ?_ ?_)).imp ?_
  · intro locals hlist x hx
    refine decides_singleton (decides_append_field (by simp [elementLocals])
      (hlist.hold hholder (val x)) (hload x hx _ List.lookup_cons_self) fun fields hfields => ?_)
    obtain ⟨hnew, vs, hvs⟩ := hfields
    exact ⟨vs, hvs, fun v => ⟨hnew.setField hrest _, _, lookup_setField_self hvs _⟩⟩
  · refine hready.mono fun fields hnew => ⟨hnew.tail, [], ?_⟩
    obtain ⟨v, hv, hempty⟩ := hnew c.field List.mem_cons_self
    rw [hv, hempty hdefault]
  · rintro flow ⟨after, rfl, hafter⟩
    exact ⟨after, rfl, hafter.mono fun _ hfields => hfields.1⟩

variable
  (h : Answers (fun operation vs => k.call (.operation (.element e) operation) vs) kind val tag own
    named)

include h

/-- A required entry fills its field if there is exactly one node and it can be loaded. -/
theorem fills_required
    (hstatements : c.statements = extraction .required kind holder name c.field.name load) :
    Fills k (elementLocals e) type
      (Occurrence.required.Contains (named name).length ∧ ∀ x ∈ named name, C x) c := by
  intro rest locals hrest hready
  rw [hstatements]
  refine decides_cons (decides_assign (eval_find (h.required name) hready)) ?_
  rintro after - ⟨_, ⟨x, hx, rfl⟩, rfl⟩
  rw [hx] at hload ⊢
  refine (decides_fill hholder hrest hready x (hload x List.mem_cons_self)).congr ?_
  simp only [List.mem_singleton, forall_eq]

/-- An optional entry fills its field if there is at most one node and it can be loaded. -/
theorem fills_optional
    (hstatements : c.statements = extraction .optional kind holder name c.field.name load) :
    Fills k (elementLocals e) type
      (Occurrence.optional.Contains (named name).length ∧ ∀ x ∈ named name, C x) c := by
  intro rest locals hrest hready
  rw [hstatements]
  refine decides_cons (decides_assign (eval_find (h.optional name) hready)) ?_
  rintro after - ⟨_, ⟨r, hr, rfl⟩, rfl⟩
  rw [hr] at hload ⊢
  have hcondition : k.eval ((holder, .ofOption val r) :: locals) (.isPresent (.var holder)) =
      .ok (.bool r.isSome) := by
    rw [eval, eval_var List.lookup_cons_self]
    cases r with
    | none => rfl
    | some x => exact congrArg (Except.ok ∘ Value.bool) (h.present x)
  refine decides_singleton (decides_if hcondition (fun hsome => ?_) fun hnone => ?_)
  · obtain ⟨x, rfl⟩ := Option.isSome_iff_exists.mp hsome
    refine (decides_fill hholder hrest hready x (hload x List.mem_cons_self)).congr ?_
    simp only [Option.toList_some, List.mem_singleton, forall_eq]
  · obtain rfl := Option.isSome_eq_false_iff.mp hnone |> Option.isNone_iff_eq_none.mp
    exact ⟨List.forall_mem_nil _, (hready.hold hholder _).tail⟩

/-- An entry fills its field if the number of nodes is allowed and each can be loaded. -/
theorem fills_extraction {o : Occurrence} {default : Default} (hword : o.HasWord)
    (hdefault : c.field.default = fieldDefault o default)
    (hstatements : c.statements = extraction o kind holder name c.field.name load) :
    Fills k (elementLocals e) type (o.Contains (named name).length ∧ ∀ x ∈ named name, C x) c := by
  rcases Occurrence.hasWord_iff.mp hword with rfl | rfl | rfl | rfl
  · exact fills_required hholder hload h hstatements
  · exact fills_optional hholder hload h hstatements
  · exact fills_repeated hholder hload (h.oneOrMore name) hdefault hstatements
  · exact fills_repeated hholder hload (h.all name) hdefault hstatements

end

namespace Complete

variable {s : Schema} {names known : TypeNames} {types : List DeclaredType}
  {before after : MemberNames} {c : FieldCode}

/-- The code of an attribute counts the attributes of the name and reads each. -/
theorem fills_attributeField (h : Complete s names types) (hkeeps : known.Keeps names)
    {x : AttributeEntry} (hc : attributeField s known before x = .ok (after, c)) (n : Nat)
    (e : Element) (type : String) :
    Context.Fills ⟨types, type, perform types (n + 4)⟩ (elementLocals e) type
      (x.occurrence.Contains (e.attributes x.name).length ∧
        ∀ a ∈ e.attributes x.name, ∃ t, x.type? s = some t ∧ t.Reads s a.values) c := by
  obtain ⟨t, name, _, default, load, hword, ht, -, -, hload, hfield, hstatements⟩ :=
    attributeField_eq_ok hc
  obtain rfl : c.field.name = name := by rw [hfield]
  refine fills_extraction (by decide) (fun a _ locals hattribute => ?_) (answers_attribute e) hword
    (by rw [hfield]) hstatements
  refine (h.decides_loadValue hkeeps hload n hattribute type).congr ?_
  simp only [ht, Option.some.injEq, exists_eq_left']

/-- The code of a child element counts the elements of the name and loads each. -/
theorem fills_elementField (hkeeps : known.Keeps names) {x : ElementEntry}
    (hc : elementField known before x = .ok (after, c)) (n : Nat) (e : Element)
    (hchildren : ∀ b, names.binding? (.element x.scope x.name) = some b →
      ∀ child ∈ e.elements x.name, Decides (Conforms s x.scope x.name child) (fun _ => True)
        (perform types (n + 4) (.operation (.type b.name) "load") [.element child]))
    (type : String) :
    Context.Fills ⟨types, type, perform types (n + 4)⟩ (elementLocals e) type
      (x.occurrence.Contains (e.elements x.name).length ∧
        ∀ child ∈ e.elements x.name, Conforms s x.scope x.name child) c := by
  obtain ⟨typeName, name, hword, hname, hfield, hstatements⟩ := elementField_eq_ok hc
  obtain rfl : c.field.name = name := by rw [hfield]
  obtain ⟨b, hb, rfl⟩ := exists_binding?_of_keeps hkeeps hname
  refine fills_extraction (by decide) (fun child hchild locals hlocal => ?_) (answers_element e)
    hword (by rw [hfield]) hstatements
  have harguments : Context.evalAll ⟨types, type, perform types (n + 4)⟩ locals [.var "child"] =
      .ok [.element child] := by
    rw [Context.evalAll, Context.eval_var hlocal]
    rfl
  rw [Context.eval_invoke_type harguments]
  exact hchildren b hb child hchild

/-! ## New records

A record can be made only if those of its required child elements can. A document that conforms has
such elements, so that its depth bounds that of the record.
-/

/-- A new record is made exactly if its defaults are. -/
theorem decides_new (h : Complete s names types) {type : String} {t : DeclaredType}
    {fields : List Field} (ht : findType types type = .ok t) (hshape : t.shape = .record fields)
    (n : Nat) :
    Decides (∀ f ∈ fields, ∃ v, f.default.value types (fresh types n) = .ok v)
      (fun v => ∃ vs, v = .record type vs ∧ Context.AllNew fields vs)
      (fresh types (n + 1) type) :=
  decides_fresh ht hshape (h.soundTypes.nodup type t fields ht hshape) fun f hf =>
    (h.soundTypes.defaults type t fields ht hshape f hf).value_ne (h.soundTypes.fresh_ne n)

/-- The record of an element that conforms can be made. -/
theorem values_of_conforms (h : Complete s names types) {n : Nat} {e : Element} {scope : Path}
    {name : String} {b : NameBinding Entity Made} {t : DeclaredType} {fields : List Field}
    (he : Conforms s scope name e) (hb : names.binding? (.element scope name) = some b)
    (ht : findType types b.name = .ok t) (hshape : t.shape = .record fields) (hn : sizeOf e ≤ n) :
    ∀ f ∈ fields, ∃ v, f.default.value types (fresh types (n + 2)) = .ok v := by
  induction he generalizing n b t fields with
  | @mk scope name d e definition same_name _ _ element_counts _ elements _ ih =>
      obtain ⟨_, isRoot, cs, ds, hd, -, hcs, hds, -, htype⟩ := h.element hb
      cases definition.symm.trans hd
      cases ht.symm.trans htype
      cases hshape
      refine List.forall_mem_map.mpr (List.forall_mem_append.mpr ⟨?_, ?_⟩)
      · refine forall_of_forall₂ hcs ?_
        rintro x c ⟨known, hkeeps, before, after, hc⟩
        exact h.value_attributeField hkeeps hc (n + 1)
      · refine forall_of_forall₂ ((List.forall₂_and_left _ _).mpr ⟨fun _ hx => hx, hds⟩) ?_
        rintro x c ⟨hx, known, hkeeps, before, after, hc⟩
        refine value_elementField hkeeps hc (n + 2) fun hrequired child hchild => ?_
        have hcount := element_counts x hx
        rw [hrequired, Occurrence.contains_required, List.length_eq_one_iff] at hcount
        obtain ⟨y, hy⟩ := hcount
        have hmem : y ∈ e.elements x.name := hy ▸ List.mem_singleton.mpr rfl
        obtain ⟨m, rfl⟩ := Nat.exists_eq_add_one.mpr
          (Nat.lt_of_lt_of_le (Nat.zero_lt_of_lt (sizeOf_lt_of_mem_elements hmem)) hn)
        obtain ⟨_, _, _, _, -, -, -, -, -, hfound⟩ := h.element hchild
        have hle := Nat.le_of_lt_succ (Nat.lt_of_lt_of_le (sizeOf_lt_of_mem_elements hmem) hn)
        obtain ⟨v, hv, -⟩ := (h.decides_new hfound rfl (m + 2)).exists_ok
          (ih x hx y hmem hchild hfound rfl hle)
        exact ⟨v, hv⟩

/-! ## Loading an element -/

/-- The fields of the attributes are filled first, then those of the child elements. -/
theorem decides_entries (h : Complete s names types) (n : Nat) (e : Element) {type : String}
    {attributes : List AttributeEntry} {elements : List ElementEntry} {cs ds : List FieldCode}
    (hcs : List.Forall₂ (fun x c => ∃ known : TypeNames, known.Keeps names ∧
      ∃ before after, attributeField s known before x = .ok (after, c)) attributes cs)
    (hds : List.Forall₂ (fun x c => ∃ known : TypeNames, known.Keeps names ∧
      ∃ before after, elementField known before x = .ok (after, c)) elements ds)
    (hnodup : ((cs ++ ds).map (·.field.name)).Nodup)
    (hchildren : ∀ scope name b, names.binding? (.element scope name) = some b →
      ∀ child ∈ e.elements name, Decides (Conforms s scope name child) (fun _ => True)
        (perform types (n + 4) (.operation (.type b.name) "load") [.element child]))
    {locals : Locals} (hready : Context.Ready (elementLocals e) type
      (Context.AllNew ((cs ++ ds).map (·.field))) locals) :
    Decides ((∀ x ∈ attributes, x.occurrence.Contains (e.attributes x.name).length ∧
          ∀ a ∈ e.attributes x.name, ∃ t, x.type? s = some t ∧ t.Reads s a.values) ∧
        ∀ x ∈ elements, x.occurrence.Contains (e.elements x.name).length ∧
          ∀ child ∈ e.elements x.name, Conforms s x.scope x.name child)
      (Context.Flow.Proceeds (Context.Ready (elementLocals e) type (Context.AllNew [])))
      (Context.runAll ⟨types, type, perform types (n + 4)⟩ locals
        ((cs ++ ds).flatMap (·.statements))) := by
  have hfields : ((cs ++ ds).map (·.field)).map (·.name) = (cs ++ ds).map (·.field.name) :=
    List.map_map
  rw [← hfields] at hnodup
  rw [List.map_append] at hnodup hready
  rw [List.flatMap_append]
  refine Context.decides_append (Context.decides_fields (ds.map (·.field)) (hcs.imp ?_) hnodup
    hready) fun after _ hafter => ?_
  · rintro x c ⟨known, hkeeps, before, after, hc⟩
    exact h.fills_attributeField hkeeps hc n e type
  · rw [List.map_append] at hnodup
    refine Context.decides_fields [] (hds.imp ?_) ?_ ?_
    · rintro x c ⟨known, hkeeps, before, after, hc⟩
      exact fills_elementField hkeeps hc n e (hchildren x.scope x.name) type
    · rw [List.append_nil]
      exact (List.nodup_append.mp hnodup).2.1
    · rwa [List.append_nil]

/-- An element is loaded exactly if it conforms to its definition. -/
theorem decides_load (h : Complete s names types) {n : Nat} {e : Element} {scope : Path}
    {name : String} {b : NameBinding Entity Made}
    (hb : names.binding? (.element scope name) = some b) (hn : sizeOf e ≤ n) :
    Decides (Conforms s scope name e) (fun v => ∃ fields, v = .record b.name fields)
      (perform types (n + 5) (.operation (.type b.name) "load") [.element e]) := by
  induction n using Nat.strongRecOn generalizing e scope name b with
  | ind n ih =>
      obtain ⟨d, isRoot, cs, ds, hd, hname, hcs, hds, hnodup, ht⟩ := h.element hb
      have hchildren : ∀ scope name b, names.binding? (.element scope name) = some b →
          ∀ child ∈ e.elements name, Decides (Conforms s scope name child) (fun _ => True)
            (perform types (n + 4) (.operation (.type b.name) "load") [.element child]) := by
        intro scope name b hb child hchild
        have hlt := sizeOf_lt_of_mem_elements hchild
        obtain ⟨m, rfl⟩ := Nat.exists_eq_add_one.mpr
          (Nat.lt_of_lt_of_le (Nat.zero_lt_of_lt hlt) hn)
        exact (ih m (Nat.lt_succ_self m) hb
          (Nat.le_of_lt_succ (Nat.lt_of_lt_of_le hlt hn))).imp fun _ _ => trivial
      have hsame : Decides (Text.sameName e.name name) (fun _ => True)
          (Context.eval ⟨types, b.name, perform types (n + 4)⟩ (elementLocals e)
            (invoke elementVar "assure_name" [text name])) := by
        rw [Context.eval_invoke_element rfl rfl]
        exact decides_check e fun _ => Element.assureName_eq_ok
      have hrecord := Context.decides_record (k := ⟨types, b.name, perform types (n + 4)⟩)
        (G := Context.AllNew []) (h.decides_new ht rfl (n + 2)) (holds_elementLocals e)
        (by simp [elementLocals]) fun after hafter =>
          h.decides_entries n e hcs hds hnodup hchildren hafter
      refine Context.decides_operation ht rfl (bindAll_loadParameters _ b.name _ e)
        (Body.finish?_ofStatements _) (Decides.congr (Context.decides_cons_check
          (Context.decides_evaluate hsame) (Context.decides_cons_check
            (decides_nameCheck (answers_element e) rfl _) (Context.decides_cons_check
              (decides_nameCheck (answers_attribute e) rfl _) hrecord))) ?_)
      simp only [Element.hasName_map]
      constructor
      · rintro ⟨hsame, helements, hattributes, -, hentries⟩
        exact (conforms_iff hd).mpr ⟨hname ▸ hsame, helements, hattributes, hentries⟩
      · intro he
        obtain ⟨hsame, helements, hattributes, hentries⟩ := (conforms_iff hd).mp he
        have hvalues := h.values_of_conforms he hb ht rfl hn
        exact ⟨hname ▸ hsame, helements, hattributes, hvalues, hentries⟩

/-- However deep it may go, loading an element does nothing without a meaning, and what it gives
is the record of an element that conforms. -/
theorem load_ends (h : Complete s names types) {scope : Path} {name : String}
    {b : NameBinding Entity Made} (hb : names.binding? (.element scope name) = some b)
    (e : Element) (n : Nat) :
    Ends (· ≠ .meaningless)
      (fun v => Conforms s scope name e ∧ ∃ fields, v = .record b.name fields)
      (perform types n (.operation (.type b.name) "load") [.element e]) := by
  have hle : n ≤ n + sizeOf e + 5 := by omega
  rcases perform_mono types hle (.operation (.type b.name) "load") [.element e] with h' | h'
  · rw [h']
    exact nofun
  · rw [h']
    exact (h.decides_load hb (Nat.le_add_left (sizeOf e) n)).mono (fun _ he => he.1)
      fun _ _ ha => ha

end Complete

end Code

namespace Schema

open Code

variable {s : Schema}

/-- The root is one of the elements at the top. -/
theorem WellFormed.root_mem_allElements (h : s.WellFormed) :
    ∃ e, s.root = some e.name ∧ ([], e) ∈ s.allElements := by
  obtain ⟨root, hroot, hmem⟩ := h.root
  obtain ⟨e, he, rfl⟩ := List.mem_map.mp hmem
  exact ⟨e, hroot, ElementDef.mem_elementsOfAll he⟩

theorem WellFormed.root_mem_entities (h : s.WellFormed) :
    ∃ root, s.root = some root ∧ Entity.element [] root ∈ s.entities := by
  obtain ⟨e, hroot, he⟩ := h.root_mem_allElements
  exact ⟨e.name, hroot, List.mem_append_right _ (List.mem_map.mpr ⟨([], e), he, rfl⟩)⟩

/-- A generated module is the printed form of the declarations. -/
theorem declarations_of_generate {runtime code : String}
    (h : (s.generate runtime).result = .ok code) :
    ∃ names types, s.declarations.result = .ok (names, types) ∧
      Module.code ⟨runtime, types⟩ = .ok code := by
  unfold generate at h
  dsimp only at h
  split at h
  · cases h
  · cases h
  · rename_i names types hresult
    exact ⟨names, types, hresult, mapError_eq_ok.mp h⟩

/-- The module that was made for a loaded schema loads exactly the documents that conform to it:
for the root element of the schema there is a type of which the operation `load` gives a record if
and only if the element conforms to the definition of the root. It never does anything without a
meaning. -/
theorem load_iff_conforms {text runtime code : String} (h : (parse text).result = .ok s)
    (hcode : (s.generate runtime).result = .ok code) :
    ∃ names types root typeName, s.declarations.result = .ok (names, types) ∧
      Module.code ⟨runtime, types⟩ = .ok code ∧ s.root = some root ∧
      names.nameOf (.element [] root) = .ok typeName ∧
      ∀ e, ((∃ n fields, perform types n (.operation (.type typeName) "load") [.element e] =
          .ok (.record typeName fields)) ↔ Conforms s [] root e) ∧
        ∀ n, Ends (· ≠ .meaningless) (fun v => ∃ fields, v = .record typeName fields)
          (perform types n (.operation (.type typeName) "load") [.element e]) := by
  have hs := wellFormed_of_parse h
  obtain ⟨names, types, hdeclarations, hprinted⟩ := declarations_of_generate hcode
  have hcomplete := complete_of_declarations hs hdeclarations
  obtain ⟨root, hroot, hmem⟩ := hs.root_mem_entities
  obtain ⟨b, hb, -⟩ := hcomplete.register.find hmem
  refine ⟨names, types, root, b.name, hdeclarations, hprinted, hroot,
    Names.nameOf_eq_ok.mpr ⟨b, hb, rfl⟩, fun e => ⟨⟨?_, fun he => ?_⟩, fun n => ?_⟩⟩
  · rintro ⟨n, fields, hn⟩
    have hends := hcomplete.load_ends hb e n
    rw [hn] at hends
    exact hends.1
  · obtain ⟨_, hv, fields, rfl⟩ := (hcomplete.decides_load hb (Nat.le_refl _)).exists_ok he
    exact ⟨_, fields, hv⟩
  · exact (hcomplete.load_ends hb e n).mono (fun _ he => he) fun _ _ hv => hv.2

/-- An element of the schema with the enumeration, with names in another letter case. -/
def treeElement : Element :=
  ⟨"a", [.attribute ⟨"C", [some "x", none], nofun⟩, .element "A" []]⟩

def treeDefinition : ElementDef := { name := "A", content := some treeContent }

theorem elementAt?_treeSchema : treeSchema.elementAt? [] "A" = some treeDefinition := rfl

/-- The second item is null. -/
theorem reads_tree :
    DataType.Reads treeSchema ⟨.struct [] "P", true, some ⟨.repeatedPlus, false⟩⟩
      [some "x", none] := by
  refine .inr ⟨1, 1, rfl, [[some "x"], [none]], rfl,
    Occurrence.contains_repeatedPlus.mpr (by decide), ?_⟩
  have hfirst : Struct.Reads treeSchema ⟨"P", [⟨"a", false, .valueType [] "E", false⟩]⟩
      [some "x"] := by
    intro x hx
    cases List.mem_singleton.mp hx
    exact ⟨["x", "y"], rfl, by decide⟩
  intro item hitem
  rcases List.mem_pair.mp hitem with rfl | rfl
  · exact ⟨rfl, .inr ⟨_, rfl, hfirst⟩⟩
  · exact ⟨rfl, .inl ⟨rfl, rfl⟩⟩

theorem conforms_treeLeaf : Conforms treeSchema [] "A" ⟨"A", []⟩ := by
  refine (conforms_iff elementAt?_treeSchema).mpr ⟨by decide, nofun, nofun, ?_, ?_⟩
  · intro x hx
    cases List.mem_singleton.mp hx
    exact ⟨Occurrence.contains_optional.mpr (by decide), nofun⟩
  · intro x hx
    cases List.mem_singleton.mp hx
    exact ⟨Occurrence.contains_repeatedStar, nofun⟩

/-- An element in an element of the same name conforms. -/
theorem conforms_treeElement : Conforms treeSchema [] "A" treeElement := by
  have hattributes : treeElement.attributes "c" = [⟨"C", [some "x", none], nofun⟩] := by decide
  have helements : treeElement.elements "A" = [⟨"A", []⟩] := rfl
  refine (conforms_iff elementAt?_treeSchema).mpr ⟨by decide, by decide, by decide, ?_, ?_⟩
  · intro x hx
    cases List.mem_singleton.mp hx
    refine ⟨Occurrence.contains_optional.mpr (by decide), fun a ha => ?_⟩
    cases List.mem_singleton.mp (hattributes ▸ ha)
    exact ⟨_, rfl, reads_tree⟩
  · intro x hx
    cases List.mem_singleton.mp hx
    refine ⟨Occurrence.contains_repeatedStar, fun c hc => ?_⟩
    cases List.mem_singleton.mp (helements ▸ hc)
    exact conforms_treeLeaf

/-- The content has no element of the inner name. -/
theorem not_conforms_stray : ¬ Conforms treeSchema [] "A" ⟨"A", [.element "B" []]⟩ := by
  intro h
  obtain ⟨-, hknown, -⟩ := (conforms_iff elementAt?_treeSchema).mp h
  exact absurd (hknown ⟨"B", []⟩ List.mem_cons_self) (by decide)

/-- Loading an element that contains itself at two depths. -/
theorem load_iff_conforms_tree :
    (parse treeText).result = .ok treeSchema ∧
      ∃ code, (treeSchema.generate "sml_document").result = .ok code ∧
        ∃ names types typeName, treeSchema.declarations.result = .ok (names, types) ∧
          names.nameOf (.element [] "A") = .ok typeName ∧
          (∃ n fields, perform types n (.operation (.type typeName) "load")
            [.element treeElement] = .ok (.record typeName fields)) ∧
          ¬ ∃ n fields, perform types n (.operation (.type typeName) "load")
            [.element ⟨"A", [.element "B" []]⟩] = .ok (.record typeName fields) := by
  obtain ⟨hname, hcrowd, hstruct⟩ := treeSchema_unobstructed
  obtain ⟨code, hcode⟩ := (wellFormed_of_parse parse_treeText).exists_generate hname hcrowd hstruct
    "sml_document"
  obtain ⟨names, types, root, typeName, hdeclarations, -, hroot, htype, hload⟩ :=
    load_iff_conforms parse_treeText hcode
  cases hroot
  exact ⟨parse_treeText, code, hcode, names, types, typeName, hdeclarations, htype,
    (hload treeElement).1.mpr conforms_treeElement,
    fun h => not_conforms_stray ((hload _).1.mp h)⟩

end Schema

end SmlSchema
