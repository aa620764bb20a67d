import SmlSchema.Proofs.Code.Declared
import SmlSchema.Proofs.Code.Execution
import SmlSchema.Proofs.Document.Reading

/-! # Code that decides a condition

Generated code checks a document while it loads it. `Decides C P x` says this of a computation: it
gives a result if the condition holds, and fails for a reason that lies in the document if not. The
rules below follow the statements that operations are made of.
-/

namespace SmlSchema.Code

/-- The computation gives a result, for which `P` holds, exactly if the condition holds; it never
does anything without a meaning. -/
def Decides (C : Prop) (P : α → Prop) (x : Except Fault α) : Prop :=
  Ends (fun f => f ≠ .meaningless ∧ ¬ C) (fun a => C ∧ P a) x

namespace Decides

variable {α β : Type} {C D : Prop} {P Q : α → Prop} {R : β → Prop} {x : Except Fault α}

theorem of_eq_ok {a : α} (h : x = .ok a) (hC : C) (hP : P a) : Decides C P x :=
  Ends.of_eq_ok h ⟨hC, hP⟩

/-- Equivalent conditions are decided alike. -/
theorem congr (h : Decides C P x) (hiff : C ↔ D) : Decides D P x := by
  rwa [← propext hiff]

/-- What is decided may promise less. -/
theorem imp (h : Decides C P x) (hP : ∀ a, P a → Q a) : Decides C Q x :=
  Ends.mono h (fun _ he => he) fun a _ ha => ⟨ha.1, hP a ha.2⟩

/-- Two steps decide both conditions. -/
theorem bind {f : α → Except Fault β} (hx : Decides C P x)
    (hf : ∀ a, C → P a → Decides D R (f a)) : Decides (C ∧ D) R (x >>= f) := by
  cases x with
  | error e => exact ⟨hx.1, fun h => hx.2 h.1⟩
  | ok a =>
      refine (hf a hx.1 hx.2).mono (fun e he => ⟨he.1, fun h => he.2 h.2⟩) fun b _ hb => ?_
      exact ⟨⟨hx.1, hb.1⟩, hb.2⟩

/-- What follows does not fail. -/
theorem bind_ok {f : α → Except Fault β} (hx : Decides C P x)
    (hf : ∀ a, C → P a → ∃ b, f a = .ok b ∧ R b) : Decides C R (x >>= f) := by
  refine (hx.bind (D := True) fun a hC ha => ?_).congr (iff_of_eq (and_true C))
  obtain ⟨b, hb, hR⟩ := hf a hC ha
  exact of_eq_ok hb trivial hR

/-- A mapped result decides the same condition. -/
theorem map {f : α → β} (hx : Decides C P x) (hf : ∀ a, C → P a → R (f a)) :
    Decides C R (f <$> x) := by
  cases x with
  | error e => exact hx
  | ok a => exact ⟨hx.1, hf a hx.1 hx.2⟩

/-- Whatever cannot go wrong decides whether it succeeds. -/
theorem self (h : x ≠ .error .meaningless) : Decides (∃ a, x = .ok a) (fun a => x = .ok a) x := by
  cases x with
  | ok a => exact ⟨⟨a, rfl⟩, rfl⟩
  | error e =>
      exact ⟨fun heq => h (congrArg _ heq), nofun⟩

/-- A computation that decides a condition succeeds where the condition holds. -/
theorem exists_ok (h : Decides C P x) (hC : C) : ∃ a, x = .ok a ∧ P a := by
  cases x with
  | ok a => exact ⟨a, rfl, h.2⟩
  | error e => exact absurd hC h.2

/-- The operations of the document library fail for reasons that lie in the document. -/
theorem lift (y : Except Violation α) :
    Decides (∃ a, y = .ok a) (fun a => y = .ok a) (liftM y : Except Fault α) := by
  cases y with
  | ok a => exact ⟨⟨a, rfl⟩, rfl⟩
  | error e => exact ⟨nofun, nofun⟩

/-- Going through a list decides the conditions of all items. -/
theorem mapM {f : α → Except Fault β} {as : List α} {C : α → Prop} {P : α → β → Prop}
    (h : ∀ a ∈ as, Decides (C a) (P a) (f a)) :
    Decides (∀ a ∈ as, C a) (List.Forall₂ P as) (as.mapM f) := by
  induction as with
  | nil => exact ⟨nofun, .nil⟩
  | cons a as ih =>
      rw [List.mapM_cons]
      refine ((h a List.mem_cons_self).bind fun b _ hb => ?_).congr List.forall_mem_cons.symm
      refine (ih fun c hc => h c (List.mem_cons_of_mem _ hc)).bind_ok fun bs _ hbs => ?_
      exact ⟨b :: bs, rfl, .cons hb hbs⟩

end Decides

/-! ## Names and fields -/

theorem lookup_cons_ne {x y : String} {v : Value} {l : List (String × Value)} (h : x ≠ y) :
    ((y, v) :: l).lookup x = l.lookup x := by
  rw [List.lookup_cons, beq_eq_false_iff_ne.mpr h]

theorem found_eq_ok {o : Option α} {a : α} : found o = .ok a ↔ o = some a := by
  cases o with
  | none => simp [found]
  | some b => simp [found]

namespace Context

/-- A field that is set has the new value. -/
theorem lookup_setField_self {fields : List (String × Value)} {name : String} {old : Value}
    (h : fields.lookup name = some old) (v : Value) :
    (setField fields name v).lookup name = some v := by
  induction fields with
  | nil => cases h
  | cons f fields ih =>
      obtain ⟨other, w⟩ := f
      by_cases heq : other = name
      · subst heq
        rw [setField, List.map_cons, if_pos rfl]
        exact List.lookup_cons_self
      · rw [lookup_cons_ne (Ne.symm heq)] at h
        rw [setField, List.map_cons, if_neg heq, lookup_cons_ne (Ne.symm heq)]
        exact ih h

/-- Setting a field keeps the others. -/
theorem lookup_setField_ne {fields : List (String × Value)} {name other : String}
    (h : other ≠ name) (v : Value) :
    (setField fields name v).lookup other = fields.lookup other := by
  induction fields with
  | nil => rfl
  | cons f fields ih =>
      obtain ⟨x, w⟩ := f
      rw [setField, List.map_cons, ← setField]
      by_cases hx : other = x
      · subst hx
        rw [if_neg h, List.lookup_cons_self, List.lookup_cons_self]
      · rw [lookup_cons_ne hx]
        split
        · rw [lookup_cons_ne h, ih]
        · rw [lookup_cons_ne hx, ih]

variable {k : Context} {locals : Locals}

theorem eval_var {x : String} {v : Value} (h : locals.lookup x = some v) :
    k.eval locals (.var x) = .ok v := found_eq_ok.mpr h

theorem values_strings (ls : List String) :
    Literal.values (ls.map .string) = .ok (ls.map .text) := by
  induction ls with
  | nil => rfl
  | cons l ls ih =>
      rw [List.map_cons, Literal.values, ih]
      rfl

theorem eval_strings (ls : List String) :
    k.eval locals (.literal (.list (ls.map .string))) = .ok (.list (ls.map .text)) := by
  rw [eval, Literal.value, values_strings]
  rfl

theorem mapM_asText (ls : List String) : (ls.map Value.text).mapM Value.asText = .ok ls := by
  induction ls with
  | nil => rfl
  | cons l ls ih =>
      rw [List.map_cons, List.mapM_cons, ih]
      rfl

@[simp] theorem eval_text (s : String) : k.eval locals (text s) = .ok (.text s) := rfl

@[simp] theorem eval_flag (b : Bool) : k.eval locals (flag b) = .ok (.bool b) := rfl

@[simp] theorem eval_count (n : Nat) : k.eval locals (count n) = .ok (.int n) := rfl

/-- An operation is called once its arguments have values. -/
theorem eval_invoke {target : Expr} {v : Value} {operation : String} {arguments : List Expr}
    {vs : List Value} (htarget : k.eval locals target = .ok v)
    (hpart : v.part operation = .ok (.operation v operation))
    (harguments : k.evalAll locals arguments = .ok vs) :
    k.eval locals (invoke target operation arguments) = k.call (.operation v operation) vs := by
  simp only [invoke, eval, htarget, hpart, harguments, ok_bind]

/-- An operation of the attribute variable is an operation of the attribute. -/
theorem eval_invoke_attribute {a : Attribute} {operation : String} {arguments : List Expr}
    {vs : List Value} (h : locals.lookup "attribute" = some (.attribute a))
    (hoperation : operation ≠ "value_count")
    (harguments : k.evalAll locals arguments = .ok vs) :
    k.eval locals (invoke attributeVar operation arguments) =
      k.call (.operation (.attribute a) operation) vs := by
  refine eval_invoke (eval_var h) ?_ harguments
  unfold Value.part
  split
  · contradiction
  · exact absurd rfl hoperation
  · contradiction
  · rfl

/-- An operation of the element variable is an operation of the element. -/
theorem eval_invoke_element {e : Element} {operation : String} {arguments : List Expr}
    {vs : List Value} (h : locals.lookup "element" = some (.element e))
    (harguments : k.evalAll locals arguments = .ok vs) :
    k.eval locals (invoke elementVar operation arguments) =
      k.call (.operation (.element e) operation) vs :=
  eval_invoke (eval_var h) rfl harguments

/-- An operation of a type is called on the type. -/
theorem eval_invoke_type {name operation : String} {arguments : List Expr} {vs : List Value}
    (harguments : k.evalAll locals arguments = .ok vs) :
    k.eval locals (invoke (.typeRef name) operation arguments) =
      k.call (.operation (.type name) operation) vs :=
  eval_invoke rfl rfl harguments

/-! ## Statements -/

/-- The statement is followed by the next one. -/
def Flow.Proceeds (P : Locals → Prop) (f : Flow) : Prop := ∃ locals, f = .next locals ∧ P locals

/-- The operation ends with a value. -/
def Flow.Returns (P : Value → Prop) (f : Flow) : Prop := ∃ v, f = .done v ∧ P v

variable {C D : Prop} {P Q : Locals → Prop} {R : Flow → Prop}

/-- A statement and those after it decide both conditions. -/
theorem decides_cons {s : Statement} {ss : List Statement}
    (hs : Decides C (Flow.Proceeds P) (k.run locals s))
    (hss : ∀ after, C → P after → Decides D R (k.runAll after ss)) :
    Decides (C ∧ D) R (k.runAll locals (s :: ss)) := by
  refine hs.bind fun flow hC hflow => ?_
  obtain ⟨after, rfl, hP⟩ := hflow
  exact hss after hC hP

theorem decides_singleton {s : Statement} (hs : Decides C (Flow.Proceeds P) (k.run locals s)) :
    Decides C (Flow.Proceeds P) (k.runAll locals [s]) := by
  refine (decides_cons (D := True) hs fun after _ hP => ?_).congr (iff_of_eq (and_true C))
  exact .of_eq_ok rfl trivial ⟨after, rfl, hP⟩

/-- Statements run one part after the other, unless the first part returns. -/
theorem runAll_append (ss ts : List Statement) :
    k.runAll locals (ss ++ ts) = (do
      match ← k.runAll locals ss with
      | .next after => k.runAll after ts
      | .done v => return .done v) := by
  induction ss generalizing locals with
  | nil => rfl
  | cons s ss ih =>
      rw [List.cons_append, runAll, runAll, bind_assoc]
      refine bind_congr fun flow => ?_
      cases flow with
      | next after => exact ih
      | done v => rfl

/-- Two parts of a body decide both conditions. -/
theorem decides_append {ss ts : List Statement}
    (hss : Decides C (Flow.Proceeds P) (k.runAll locals ss))
    (hts : ∀ after, C → P after → Decides D R (k.runAll after ts)) :
    Decides (C ∧ D) R (k.runAll locals (ss ++ ts)) := by
  rw [runAll_append]
  refine hss.bind fun flow hC hflow => ?_
  obtain ⟨after, rfl, hP⟩ := hflow
  exact hts after hC hP

theorem decides_evaluate {x : Expr} (h : Decides C (fun _ => True) (k.eval locals x)) :
    Decides C (Flow.Proceeds (· = locals)) (k.run locals (.step (.evaluate x))) :=
  h.bind_ok fun _ _ _ => ⟨_, rfl, locals, rfl, rfl⟩

/-- A check leaves everything as it was. -/
theorem decides_cons_check {s : Statement} {ss : List Statement}
    (hs : Decides C (Flow.Proceeds (· = locals)) (k.run locals s))
    (hss : Decides D R (k.runAll locals ss)) : Decides (C ∧ D) R (k.runAll locals (s :: ss)) := by
  refine decides_cons hs ?_
  rintro after - rfl
  exact hss

/-- An assignment decides what its value decides and sets the variable. -/
theorem decides_assign {x : String} {value : Expr} {S : Value → Prop}
    (h : Decides C S (k.eval locals value)) :
    Decides C (Flow.Proceeds fun after => ∃ v, S v ∧ after = (x, v) :: locals)
      (k.run locals (.step (.assign (.var x) value))) :=
  h.bind_ok fun v _ hv => ⟨_, rfl, _, rfl, v, hv, rfl⟩

/-- A return decides what its value decides. -/
theorem decides_giveBack {x : Expr} {S : Value → Prop} (h : Decides C S (k.eval locals x)) :
    Decides C (Flow.Returns S) (k.runAll locals [.step (.giveBack x)]) := by
  have hstep : Decides C (Flow.Returns S) (k.run locals (.step (.giveBack x))) :=
    h.bind_ok fun v _ hv => ⟨_, rfl, v, rfl, hv⟩
  refine hstep.bind_ok ?_
  rintro flow - ⟨v, rfl, hv⟩
  exact ⟨_, rfl, v, rfl, hv⟩

/-- An operation gives what its statements give back. -/
theorem runOperation_eq {types : List DeclaredType} {type operation : String}
    {call : Value → List Value → Except Fault Value} {t : DeclaredType} {m : Method}
    {vs : List Value} {ss : List Statement} {r : Except Fault Value}
    (ht : findType types type = .ok t)
    (hm : t.methods.find? (·.signature.name == operation) = some m)
    (hlocals : bindAll ⟨types, type, call⟩ m.signature.parameters vs = .ok locals)
    (hss : m.body.finish? = some ss)
    (h : runAll ⟨types, type, call⟩ locals ss = r.map .done) :
    runOperation types call type operation vs = r := by
  simp only [runOperation, ht, hm, hss, found, hlocals, ok_bind, h]
  cases r <;> rfl

/-- An operation of a declared type decides what its body decides. -/
theorem decides_operation {types : List DeclaredType} {type operation : String}
    {call : Value → List Value → Except Fault Value} {t : DeclaredType} {m : Method}
    {vs : List Value} {ss : List Statement} {S : Value → Prop} (ht : findType types type = .ok t)
    (hm : t.methods.find? (·.signature.name == operation) = some m)
    (hlocals : bindAll ⟨types, type, call⟩ m.signature.parameters vs = .ok locals)
    (hss : m.body.finish? = some ss)
    (h : Decides C (Flow.Returns S) (runAll ⟨types, type, call⟩ locals ss)) :
    Decides C S (runOperation types call type operation vs) := by
  simp only [runOperation, ht, hm, hss, found, hlocals, ok_bind]
  refine h.bind_ok ?_
  rintro flow - ⟨v, rfl, hv⟩
  exact ⟨v, rfl, hv⟩

/-- A conditional decides what its block decides, if the block is run. -/
theorem decides_if {condition : Expr} {b : Bool} {ss : List Statement}
    (hcondition : k.eval locals condition = .ok (.bool b))
    (hthen : b = true → Decides C (Flow.Proceeds P) (k.runAll locals ss))
    (helse : b = false → C ∧ P locals) :
    Decides C (Flow.Proceeds P) (k.run locals (.block (.ifTrue condition) ss)) := by
  rw [run, hcondition, ok_bind, Value.asBool, ok_bind]
  cases b with
  | true => exact hthen rfl
  | false =>
      obtain ⟨hC, hP⟩ := helse rfl
      exact .of_eq_ok rfl hC ⟨locals, rfl, hP⟩

/-- A loop that keeps an invariant decides the conditions of all items. -/
theorem decides_loop {α : Type} {body : Locals → Value → Except Fault Flow} {val : α → Value}
    {C : α → Prop} {xs : List α}
    (hbody : ∀ locals, P locals → ∀ x ∈ xs,
      Decides (C x) (Flow.Proceeds P) (body locals (val x)))
    (hP : P locals) :
    Decides (∀ x ∈ xs, C x) (Flow.Proceeds P) (loop body locals (xs.map val)) := by
  induction xs generalizing locals with
  | nil => exact .of_eq_ok rfl nofun ⟨locals, rfl, hP⟩
  | cons x xs ih =>
      refine ((hbody locals hP x List.mem_cons_self).bind fun flow _ hflow => ?_).congr
        List.forall_mem_cons.symm
      obtain ⟨after, rfl, hafter⟩ := hflow
      exact ih (fun l hl y hy => hbody l hl y (List.mem_cons_of_mem _ hy)) hafter

/-- A loop statement decides the condition of its items and those of all passes. -/
theorem decides_forEach {α : Type} {holder : String} {items : Expr} {ss : List Statement}
    {val : α → Value} {xs : List α} {D : α → Prop}
    (hitems : Decides C (· = .list (xs.map val)) (k.eval locals items))
    (hbody : ∀ locals, P locals → ∀ x ∈ xs,
      Decides (D x) (Flow.Proceeds P) (k.runAll ((holder, val x) :: locals) ss))
    (hP : P locals) :
    Decides (C ∧ ∀ x ∈ xs, D x) (Flow.Proceeds P)
      (k.run locals (.block (.forEach holder items) ss)) := by
  rw [run]
  refine hitems.bind fun v _ hv => ?_
  rw [hv, Value.asList, ok_bind]
  exact decides_loop hbody hP

/-! ## Records that are being made

An operation that loads a record fills one field after the other. The fields that are still to be
filled are as they were made; of these only lists matter, to which items are added.
-/

/-- The field is there, and a list is still empty. -/
def IsNew (fields : List (String × Value)) (f : Field) : Prop :=
  ∃ v, fields.lookup f.name = some v ∧ (f.default = .emptyList → v = .list [])

/-- The names in `kept` have their values. -/
def Holds (kept locals : Locals) : Prop := ∀ x v, (x, v) ∈ kept → locals.lookup x = some v

/-- A new variable does not touch those that are kept. -/
theorem Holds.cons {kept : Locals} (h : Holds kept locals) {x : String} (v : Value)
    (hx : x ∉ kept.map (·.1)) : Holds kept ((x, v) :: locals) := by
  intro y w hy
  rw [lookup_cons_ne (ne_of_mem_of_not_mem (List.mem_map.mpr ⟨_, hy, rfl⟩) hx)]
  exact h y w hy

/-- Besides, the result is a record of the type with fields as they should be. -/
structure Ready (kept : Locals) (type : String) (F : List (String × Value) → Prop)
    (locals : Locals) : Prop where
  holds : Holds kept locals
  record : ∃ fields, locals.lookup "result" = some (.record type fields) ∧ F fields

variable {kept : Locals} {type : String} {F G : List (String × Value) → Prop}

/-- A new variable does not touch the record that is made. -/
theorem Ready.cons (h : Ready kept type F locals) {x : String} (v : Value) (hx : x ≠ "result")
    (hkept : x ∉ kept.map (·.1)) : Ready kept type F ((x, v) :: locals) := by
  obtain ⟨fields, hresult, hF⟩ := h.record
  exact ⟨h.holds.cons v hkept, fields, by rwa [lookup_cons_ne hx.symm], hF⟩

/-- The record may be known to satisfy less. -/
theorem Ready.mono (h : Ready kept type F locals) (hF : ∀ fields, F fields → G fields) :
    Ready kept type G locals := by
  obtain ⟨fields, hresult, hfields⟩ := h.record
  exact ⟨h.holds, fields, hresult, hF fields hfields⟩

theorem Holds.ready {fields : List (String × Value)} (h : Holds kept locals)
    (hkept : "result" ∉ kept.map (·.1)) (hF : F fields) :
    Ready kept type F (("result", .record type fields) :: locals) :=
  ⟨h.cons _ hkept, fields, List.lookup_cons_self, hF⟩

/-- Storing into a field of the record changes the record. -/
theorem store_field {fields : List (String × Value)} {field : String} {old : Value}
    (hresult : locals.lookup "result" = some (.record type fields))
    (hfield : fields.lookup field = some old) (v : Value) :
    store locals (.attr resultVar field) v =
      .ok (("result", .record type (setField fields field v)) :: locals) := by
  simp only [resultVar, store, hresult, hfield, found, ok_bind]
  rfl

/-- Assigning to a field decides what the value decides and changes the record. -/
theorem decides_assign_field {value : Expr} {field : String} {S : Value → Prop}
    (hkept : "result" ∉ kept.map (·.1)) (h : Ready kept type F locals)
    (hvalue : Decides C S (k.eval locals value))
    (hfield : ∀ fields, F fields → (∃ old, fields.lookup field = some old) ∧
      ∀ v, G (setField fields field v)) :
    Decides C (Flow.Proceeds (Ready kept type G))
      (k.run locals (.step (.assign (.attr resultVar field) value))) := by
  obtain ⟨fields, hresult, hF⟩ := h.record
  obtain ⟨⟨old, hold⟩, hG⟩ := hfield fields hF
  refine hvalue.bind_ok fun v _ _ => ?_
  rw [store_field hresult hold]
  exact ⟨_, rfl, _, rfl, h.holds.ready hkept (hG v)⟩

/-- Appending to a field decides what the value decides and changes the record. -/
theorem decides_append_field {value : Expr} {field : String} {S : Value → Prop}
    (hkept : "result" ∉ kept.map (·.1)) (h : Ready kept type F locals)
    (hvalue : Decides C S (k.eval locals value))
    (hfield : ∀ fields, F fields → ∃ vs, fields.lookup field = some (.list vs) ∧
      ∀ v, G (setField fields field (.list (vs ++ [v])))) :
    Decides C (Flow.Proceeds (Ready kept type G))
      (k.run locals (.step (.append (.attr resultVar field) value))) := by
  obtain ⟨fields, hresult, hF⟩ := h.record
  obtain ⟨vs, hold, hG⟩ := hfield fields hF
  have htarget : k.eval locals (.attr resultVar field) = .ok (.list vs) := by
    rw [eval, resultVar, eval_var hresult, ok_bind, Value.part, hold, found]
  rw [run, runStep, htarget, ok_bind, Value.asList, ok_bind]
  refine hvalue.bind_ok fun v _ _ => ?_
  rw [store_field hresult hold]
  exact ⟨_, rfl, _, rfl, h.holds.ready hkept (hG v)⟩

/-- The fields are as they were made. -/
def AllNew (fs : List Field) (fields : List (String × Value)) : Prop := ∀ f ∈ fs, IsNew fields f

variable {f : Field} {rest : List Field}

theorem AllNew.tail {fields : List (String × Value)} (h : AllNew (f :: rest) fields) :
    AllNew rest fields := fun g hg => h g (List.mem_cons_of_mem _ hg)

/-- Filling one field leaves the others as they were made. -/
theorem AllNew.setField {fields : List (String × Value)} (h : AllNew rest fields)
    (hf : f.name ∉ rest.map (·.name)) (v : Value) : AllNew rest (setField fields f.name v) := by
  intro g hg
  obtain ⟨w, hw, hlist⟩ := h g hg
  refine ⟨w, ?_, hlist⟩
  rwa [lookup_setField_ne]
  intro heq
  exact hf (heq ▸ List.mem_map.mpr ⟨g, hg, rfl⟩)

theorem Ready.tail (h : Ready kept type (AllNew (f :: rest)) locals) :
    Ready kept type (AllNew rest) locals := h.mono fun _ hnew => hnew.tail

/-- Assigning to a field for the first time leaves the other fields new. -/
theorem decides_assign_new {value : Expr} {S : Value → Prop} (hkept : "result" ∉ kept.map (·.1))
    (h : Ready kept type (AllNew (f :: rest)) locals) (hf : f.name ∉ rest.map (·.name))
    (hvalue : Decides C S (k.eval locals value)) :
    Decides C (Flow.Proceeds (Ready kept type (AllNew rest)))
      (k.run locals (.step (.assign (.attr resultVar f.name) value))) := by
  refine decides_assign_field hkept h hvalue fun fields hnew => ?_
  obtain ⟨old, hold, -⟩ := hnew f List.mem_cons_self
  exact ⟨⟨old, hold⟩, hnew.tail.setField hf⟩

/-- The statements fill the field, and they decide the condition. -/
def Fills (k : Context) (kept : Locals) (type : String) (C : Prop) (c : FieldCode) : Prop :=
  ∀ rest locals, c.field.name ∉ rest.map Field.name →
    Ready kept type (AllNew (c.field :: rest)) locals →
      Decides C (Flow.Proceeds (Ready kept type (AllNew rest))) (k.runAll locals c.statements)

/-- The code of several fields fills them one after the other. -/
theorem decides_fields {α : Type} {C : α → Prop} {xs : List α} {cs : List FieldCode}
    (rest : List Field) (h : List.Forall₂ (fun x c => Fills k kept type (C x) c) xs cs)
    (hnodup : ((cs.map (·.field) ++ rest).map (·.name)).Nodup)
    (hready : Ready kept type (AllNew (cs.map (·.field) ++ rest)) locals) :
    Decides (∀ x ∈ xs, C x) (Flow.Proceeds (Ready kept type (AllNew rest)))
      (k.runAll locals (cs.flatMap (·.statements))) := by
  induction h generalizing locals with
  | nil => exact .of_eq_ok rfl nofun ⟨locals, rfl, hready⟩
  | @cons x c xs cs hc _ ih =>
      rw [List.map_cons, List.cons_append, List.map_cons, List.nodup_cons] at hnodup
      rw [List.flatMap_cons]
      refine (decides_append (hc _ locals hnodup.1 hready) fun after _ hafter => ?_).congr
        List.forall_mem_cons.symm
      exact ih hnodup.2 hafter

/-- An operation makes a record, fills it and gives it back. -/
theorem decides_record {ss : List Statement}
    (hnew : Decides C (fun v => ∃ fields, v = .record k.self fields ∧ F fields)
      (k.call (.type k.self) []))
    (hlocals : Holds kept locals) (hkept : "result" ∉ kept.map (·.1))
    (hss : ∀ after, Ready kept k.self F after →
      Decides D (Flow.Proceeds (Ready kept k.self G)) (k.runAll after ss)) :
    Decides (C ∧ D) (Flow.Returns fun v => ∃ fields, v = .record k.self fields)
      (k.runAll locals (.step (.assign resultVar (.call .selfType [])) ::
        (ss ++ [.step (.giveBack resultVar)]))) := by
  refine decides_cons (decides_assign hnew) fun after _ hafter => ?_
  obtain ⟨_, ⟨fields, rfl, hF⟩, rfl⟩ := hafter
  refine (decides_append (hss _ (hlocals.ready hkept hF)) fun after _ hafter => ?_).congr
    (iff_of_eq (and_true D))
  obtain ⟨filled, hresult, -⟩ := hafter.record
  exact decides_giveBack (.of_eq_ok (eval_var hresult) trivial ⟨filled, rfl⟩)

end Context

end SmlSchema.Code
