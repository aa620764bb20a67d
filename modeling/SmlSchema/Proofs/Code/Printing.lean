import SmlSchema.Proofs.Code.Statements

/-! # Modules that can be written

A part can be written if every part of it has a description and all its blocks are closed.
-/

namespace SmlSchema.Code

/-! ## Parts with descriptions -/

def Role.Known : Role → Prop
  | .unknown _ => False
  | _ => True

def TypeDesc.Known : TypeDesc → Prop
  | .nullable t => t.Known
  | .list t => t.Known
  | .runtime r => r.Known
  | .foreign _ => False
  | _ => True

def Default.Known : Default → Prop
  | .foreign _ => False
  | _ => True

mutual

def Literal.Known : Literal → Prop
  | .list items => Literal.KnownAll items
  | .record _ => False
  | _ => True
termination_by structural l => l

def Literal.KnownAll : List Literal → Prop
  | [] => True
  | l :: ls => l.Known ∧ Literal.KnownAll ls
termination_by structural ls => ls

end

mutual

def Expr.Known : Expr → Prop
  | .runtime r => r.Known
  | .attr e _ => e.Known
  | .call f args => f.Known ∧ Expr.KnownAll args
  | .literal l => l.Known
  | .add a b => a.Known ∧ b.Known
  | .memberAt e i => e.Known ∧ i.Known
  | .isPresent e => e.Known
  | .isAbsent e => e.Known
  | .greater a b => a.Known ∧ b.Known
  | .both a b => a.Known ∧ b.Known
  | .foreign _ => False
  | _ => True
termination_by structural e => e

def Expr.KnownAll : List Expr → Prop
  | [] => True
  | e :: es => e.Known ∧ Expr.KnownAll es
termination_by structural es => es

end

def Step.Known : Step → Prop
  | .assign t e => t.Known ∧ e.Known
  | .append t e => t.Known ∧ e.Known
  | .giveBack e => e.Known
  | .evaluate e => e.Known
  | .foreign _ => False

def Header.Known : Header → Prop
  | .ifTrue e => e.Known
  | .forEach _ e => e.Known
  | .foreign _ => False

mutual

def Statement.Known : Statement → Prop
  | .step s => s.Known
  | .block h ss => h.Known ∧ Statement.KnownAll ss
termination_by structural s => s

def Statement.KnownAll : List Statement → Prop
  | [] => True
  | s :: ss => s.Known ∧ Statement.KnownAll ss
termination_by structural ss => ss

end

/-- Two lists of statements are known exactly if their concatenation is. -/
theorem Statement.knownAll_append {ss ts : List Statement} :
    KnownAll (ss ++ ts) ↔ KnownAll ss ∧ KnownAll ts := by
  induction ss with
  | nil => exact (iff_of_eq (true_and _)).symm
  | cons s ss ih => rw [List.cons_append, KnownAll, KnownAll, ih, and_assoc]

theorem Statement.knownAll_flatMap {f : α → List Statement} {xs : List α}
    (h : ∀ x ∈ xs, KnownAll (f x)) : KnownAll (xs.flatMap f) := by
  induction xs with
  | nil => exact trivial
  | cons x xs ih =>
      rw [List.flatMap_cons, knownAll_append]
      exact ⟨h x List.mem_cons_self, ih fun y hy => h y (List.mem_cons_of_mem _ hy)⟩

theorem Literal.knownAll_strings (ss : List String) : KnownAll (ss.map .string) := by
  induction ss with
  | nil => exact trivial
  | cons s ss ih => exact ⟨trivial, ih⟩

structure Parameter.Known (p : Parameter) : Prop where
  type : p.type.Known
  default : ∀ e, p.default = some e → e.Known

structure Method.Known (m : Method) : Prop where
  parameters : ∀ p ∈ m.signature.parameters, p.Known
  returns : m.signature.returns.Known
  body : ∃ ss, m.body = .ofStatements ss ∧ Statement.KnownAll ss

structure Field.Known (f : Field) : Prop where
  type : f.type.Known
  default : f.default.Known

def Shape.Known : Shape → Prop
  | .enumeration vs => ∀ v ∈ vs, v.literal.Known
  | .record fs => ∀ f ∈ fs, f.Known

structure DeclaredType.Known (t : DeclaredType) : Prop where
  shape : t.shape.Known
  methods : ∀ m ∈ t.methods, m.Known

/-! ## Writing them -/

theorem Role.code_eq_ok : ∀ {r : Role}, r.Known → ∃ text, r.code = .ok text
  | .document, _ => ⟨_, rfl⟩
  | .element, _ => ⟨_, rfl⟩
  | .attribute, _ => ⟨_, rfl⟩

/-- A known type can be printed. -/
theorem TypeDesc.code_eq_ok {t : TypeDesc} (h : t.Known) : ∃ text, t.code = .ok text := by
  induction t with
  | scalar p => exact ⟨_, rfl⟩
  | named name => exact ⟨_, rfl⟩
  | nullable t ih =>
      obtain ⟨text, htext⟩ := ih h
      exact ⟨_, bind_eq_ok.mpr ⟨text, htext, rfl⟩⟩
  | list t ih =>
      obtain ⟨text, htext⟩ := ih h
      exact ⟨_, bind_eq_ok.mpr ⟨text, htext, rfl⟩⟩
  | runtime r => exact r.code_eq_ok h
  | foreign value => exact h.elim

/-- A known default can be printed. -/
theorem Default.code_eq_ok : ∀ {d : Default}, d.Known → ∃ text, d.code = .ok text
  | .zero _, _ => ⟨_, rfl⟩
  | .none, _ => ⟨_, rfl⟩
  | .emptyList, _ => ⟨_, rfl⟩
  | .newInstance _, _ => ⟨_, rfl⟩
  | .member _ _, _ => ⟨_, rfl⟩

mutual

/-- A known literal can be printed. -/
theorem Literal.code_eq_ok : ∀ l : Literal, l.Known → ∃ text, l.code = .ok text
  | .none, _ => ⟨_, rfl⟩
  | .bool _, _ => ⟨_, rfl⟩
  | .int _, _ => ⟨_, rfl⟩
  | .number _, _ => ⟨_, rfl⟩
  | .string _, _ => ⟨_, rfl⟩
  | .list items, h => by
      obtain ⟨texts, htexts⟩ := Literal.codeAll_eq_ok items h
      exact ⟨_, bind_eq_ok.mpr ⟨texts, htexts, rfl⟩⟩
  | .record _, h => h.elim
termination_by structural l => l

theorem Literal.codeAll_eq_ok : ∀ ls : List Literal, Literal.KnownAll ls →
    ∃ texts, Literal.codeAll ls = .ok texts
  | [], _ => ⟨_, rfl⟩
  | l :: ls, h => by
      obtain ⟨text, htext⟩ := Literal.code_eq_ok l h.1
      obtain ⟨texts, htexts⟩ := Literal.codeAll_eq_ok ls h.2
      exact ⟨_, bind_eq_ok.mpr ⟨text, htext, bind_eq_ok.mpr ⟨texts, htexts, rfl⟩⟩⟩
termination_by structural ls => ls

end

mutual

/-- A known expression can be printed. -/
theorem Expr.code_eq_ok : ∀ e : Expr, e.Known → ∃ text, e.code = .ok text
  | .var _, _ => ⟨_, rfl⟩
  | .selfType, _ => ⟨_, rfl⟩
  | .typeRef _, _ => ⟨_, rfl⟩
  | .runtime r, h => r.code_eq_ok h
  | .attr e _, h => by
      obtain ⟨text, htext⟩ := Expr.code_eq_ok e h
      exact ⟨_, bind_eq_ok.mpr ⟨text, htext, rfl⟩⟩
  | .call f args, h => by
      obtain ⟨text, htext⟩ := Expr.code_eq_ok f h.1
      obtain ⟨texts, htexts⟩ := Expr.codeAll_eq_ok args h.2
      exact ⟨_, bind_eq_ok.mpr ⟨texts, htexts, bind_eq_ok.mpr ⟨text, htext, rfl⟩⟩⟩
  | .literal l, h => l.code_eq_ok h
  | .add a b, h => by
      obtain ⟨left, hleft⟩ := Expr.code_eq_ok a h.1
      obtain ⟨right, hright⟩ := Expr.code_eq_ok b h.2
      rw [Expr.code]
      split
      · exact ⟨left, hleft⟩
      · exact ⟨_, bind_eq_ok.mpr ⟨left, hleft, bind_eq_ok.mpr ⟨right, hright, rfl⟩⟩⟩
  | .memberAt a b, h => by
      obtain ⟨left, hleft⟩ := Expr.code_eq_ok a h.1
      obtain ⟨right, hright⟩ := Expr.code_eq_ok b h.2
      exact ⟨_, bind_eq_ok.mpr ⟨left, hleft, bind_eq_ok.mpr ⟨right, hright, rfl⟩⟩⟩
  | .isPresent e, h => by
      obtain ⟨text, htext⟩ := Expr.code_eq_ok e h
      exact ⟨_, bind_eq_ok.mpr ⟨text, htext, rfl⟩⟩
  | .isAbsent e, h => by
      obtain ⟨text, htext⟩ := Expr.code_eq_ok e h
      exact ⟨_, bind_eq_ok.mpr ⟨text, htext, rfl⟩⟩
  | .greater a b, h => by
      obtain ⟨left, hleft⟩ := Expr.code_eq_ok a h.1
      obtain ⟨right, hright⟩ := Expr.code_eq_ok b h.2
      exact ⟨_, bind_eq_ok.mpr ⟨left, hleft, bind_eq_ok.mpr ⟨right, hright, rfl⟩⟩⟩
  | .both a b, h => by
      obtain ⟨left, hleft⟩ := Expr.code_eq_ok a h.1
      obtain ⟨right, hright⟩ := Expr.code_eq_ok b h.2
      exact ⟨_, bind_eq_ok.mpr ⟨left, hleft, bind_eq_ok.mpr ⟨right, hright, rfl⟩⟩⟩
  | .foreign _, h => h.elim
termination_by structural e => e

theorem Expr.codeAll_eq_ok : ∀ es : List Expr, Expr.KnownAll es →
    ∃ texts, Expr.codeAll es = .ok texts
  | [], _ => ⟨_, rfl⟩
  | e :: es, h => by
      obtain ⟨text, htext⟩ := Expr.code_eq_ok e h.1
      obtain ⟨texts, htexts⟩ := Expr.codeAll_eq_ok es h.2
      exact ⟨_, bind_eq_ok.mpr ⟨text, htext, bind_eq_ok.mpr ⟨texts, htexts, rfl⟩⟩⟩
termination_by structural es => es

end

/-- A known step can be printed. -/
theorem Step.code_eq_ok {s : Step} (h : s.Known) : ∃ text, s.code = .ok text := by
  cases s with
  | assign t e =>
      obtain ⟨left, hleft⟩ := t.code_eq_ok h.1
      obtain ⟨right, hright⟩ := e.code_eq_ok h.2
      exact ⟨_, bind_eq_ok.mpr ⟨left, hleft, bind_eq_ok.mpr ⟨right, hright, rfl⟩⟩⟩
  | append t e =>
      obtain ⟨left, hleft⟩ := t.code_eq_ok h.1
      obtain ⟨right, hright⟩ := e.code_eq_ok h.2
      exact ⟨_, bind_eq_ok.mpr ⟨left, hleft, bind_eq_ok.mpr ⟨right, hright, rfl⟩⟩⟩
  | giveBack e =>
      obtain ⟨text, htext⟩ := e.code_eq_ok h
      exact ⟨_, bind_eq_ok.mpr ⟨text, htext, rfl⟩⟩
  | evaluate e => exact e.code_eq_ok h
  | foreign value => exact h.elim

/-- The header of a block can be printed if its expressions are known. -/
theorem Header.code_eq_ok {h : Header} (hknown : h.Known) : ∃ text, h.code = .ok text := by
  cases h with
  | ifTrue e =>
      obtain ⟨text, htext⟩ := e.code_eq_ok hknown
      exact ⟨_, bind_eq_ok.mpr ⟨text, htext, rfl⟩⟩
  | forEach x e =>
      obtain ⟨text, htext⟩ := e.code_eq_ok hknown
      exact ⟨_, bind_eq_ok.mpr ⟨text, htext, rfl⟩⟩
  | foreign value => exact hknown.elim

mutual

/-- A known statement can be printed at every level. -/
theorem Statement.code_eq_ok (level : Int) : ∀ s : Statement, s.Known →
    ∃ lines, s.code level = .ok lines
  | .step s, h => by
      obtain ⟨text, htext⟩ := s.code_eq_ok h
      exact ⟨_, bind_eq_ok.mpr ⟨text, htext, rfl⟩⟩
  | .block header ss, h => by
      obtain ⟨text, htext⟩ := header.code_eq_ok h.1
      obtain ⟨lines, hlines⟩ := Statement.codeAll_eq_ok (level + 1) ss h.2
      exact ⟨_, bind_eq_ok.mpr ⟨text, htext, bind_eq_ok.mpr ⟨lines, hlines, rfl⟩⟩⟩
termination_by structural s => s

theorem Statement.codeAll_eq_ok (level : Int) : ∀ ss : List Statement, Statement.KnownAll ss →
    ∃ lines, Statement.codeAll level ss = .ok lines
  | [], _ => ⟨_, rfl⟩
  | s :: ss, h => by
      obtain ⟨lines, hlines⟩ := Statement.code_eq_ok level s h.1
      obtain ⟨more, hmore⟩ := Statement.codeAll_eq_ok level ss h.2
      exact ⟨_, bind_eq_ok.mpr ⟨lines, hlines, bind_eq_ok.mpr ⟨more, hmore, rfl⟩⟩⟩
termination_by structural ss => ss

end

/-- Parts that can each be written can be written one after the other. -/
theorem mapM_code_eq_ok {f : α → Printed β} {xs : List α} (h : ∀ x ∈ xs, ∃ y, f x = .ok y) :
    ∃ ys, xs.mapM f = .ok ys := by
  induction xs with
  | nil => exact ⟨[], rfl⟩
  | cons x xs ih =>
      obtain ⟨y, hy⟩ := h x List.mem_cons_self
      obtain ⟨ys, hys⟩ := ih fun z hz => h z (List.mem_cons_of_mem _ hz)
      rw [List.mapM_cons, hy, ok_bind, hys]
      exact ⟨y :: ys, rfl⟩

theorem Parameter.code_eq_ok {p : Parameter} (h : p.Known) : ∃ text, p.code = .ok text := by
  obtain ⟨type, htype⟩ := p.type.code_eq_ok h.type
  cases hdefault : p.default with
  | none =>
      simp only [Parameter.code, htype, ok_bind, hdefault]
      exact ⟨_, rfl⟩
  | some e =>
      obtain ⟨text, htext⟩ := e.code_eq_ok (h.default e hdefault)
      simp only [Parameter.code, htype, ok_bind, hdefault, htext]
      exact ⟨_, rfl⟩

/-- A body made of known statements can be printed: all its blocks are closed. -/
theorem Body.code_eq_ok {ss : List Statement} (h : Statement.KnownAll ss) (level : Int) :
    ∃ lines, (Body.ofStatements ss).code level = .ok lines := by
  obtain ⟨lines, hlines⟩ := Statement.codeAll_eq_ok level ss h
  rw [Body.code_ofStatements, hlines]
  exact ⟨_, rfl⟩

/-- A known method can be printed. -/
theorem Method.code_eq_ok {m : Method} (h : m.Known) : ∃ lines, m.code = .ok lines := by
  obtain ⟨parameters, hparameters⟩ := mapM_code_eq_ok fun p hp =>
    Parameter.code_eq_ok (h.parameters p hp)
  obtain ⟨returns, hreturns⟩ := m.signature.returns.code_eq_ok h.returns
  obtain ⟨ss, hbody, hss⟩ := h.body
  obtain ⟨lines, hlines⟩ := Body.code_eq_ok hss 2
  simp only [Method.code, Signature.code, hparameters, hreturns, hbody, hlines, ok_bind, pure_eq_ok]
  exact ⟨_, rfl⟩

theorem Field.code_eq_ok {f : Field} (h : f.Known) : ∃ text, f.code = .ok text := by
  obtain ⟨type, htype⟩ := f.type.code_eq_ok h.type
  obtain ⟨default, hdefault⟩ := f.default.code_eq_ok h.default
  simp only [Field.code, htype, hdefault, ok_bind]
  exact ⟨_, rfl⟩

theorem Variant.code_eq_ok {v : Variant} (h : v.literal.Known) : ∃ text, v.code = .ok text := by
  obtain ⟨text, htext⟩ := v.literal.code_eq_ok h
  simp only [Variant.code, htext, ok_bind]
  exact ⟨_, rfl⟩

/-- A known type declaration can be printed. -/
theorem DeclaredType.code_eq_ok {t : DeclaredType} (h : t.Known) : ∃ lines, t.code = .ok lines := by
  obtain ⟨methods, hmethods⟩ := mapM_code_eq_ok fun m hm => Method.code_eq_ok (h.methods m hm)
  have hshape := h.shape
  cases hs : t.shape with
  | enumeration variants =>
      rw [hs] at hshape
      obtain ⟨texts, htexts⟩ := mapM_code_eq_ok fun v hv => Variant.code_eq_ok (hshape v hv)
      simp only [DeclaredType.code, hs, htexts, hmethods, ok_bind]
      exact ⟨_, rfl⟩
  | record fields =>
      rw [hs] at hshape
      obtain ⟨texts, htexts⟩ := mapM_code_eq_ok fun f hf => Field.code_eq_ok (hshape f hf)
      simp only [DeclaredType.code, hs, htexts, hmethods, ok_bind]
      exact ⟨_, rfl⟩

/-- A module of parts that have descriptions can be written. -/
theorem Module.code_eq_ok {m : Module} (h : ∀ t ∈ m.types, t.Known) :
    ∃ text, m.code = .ok text := by
  obtain ⟨types, htypes⟩ := mapM_code_eq_ok fun t ht => DeclaredType.code_eq_ok (h t ht)
  simp only [Module.code, htypes, ok_bind]
  exact ⟨_, rfl⟩

end SmlSchema.Code
