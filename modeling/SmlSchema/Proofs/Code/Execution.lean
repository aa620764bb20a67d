import SmlSchema.Document.Element
import SmlSchema.Document.Reader
import SmlSchema.Proofs.Code.Statements

/-! # Running generated code

What the expressions, statements and operations of a generated module mean. A call of an operation
of the document library is the operation of that name. A call of a type makes a new record, in which
every field has its default.

Types can refer to each other, so nothing bounds the calls inside a call. A run takes the depth of
calls that it may reach; a run that would go deeper is unfinished. More depth changes nothing else
(`perform_mono`).
-/

namespace SmlSchema

/-- The value of a new field of the type. -/
def Predefined.zero : Predefined → Scalar
  | .bool => .bool false
  | .int | .uint => .int 0
  | .number => .number ⟨0⟩
  | .string => .string ""
  | .date => .date ⟨1970, 1, 1⟩
  | .time => .time ⟨0, 0, 0, 0, none⟩
  | .dateTime => .dateTime ⟨⟨1970, 1, 1⟩, ⟨0, 0, 0, 0, none⟩⟩
  | .base64 => .bytes []

namespace Code

/-! ## Values -/

/-- What an expression can stand for. A record that still changes has one name only, so that it need
not be told apart from its copies. -/
inductive Value where
  | none
  | scalar (v : Scalar)
  | list (items : List Value)
  | member (type : String) (position : Nat)
  | record (type : String) (fields : List (String × Value))
  | document (d : Document)
  | element (e : Element)
  | attribute (a : Attribute)
  | type (name : String)
  | library (role : Role)
  | operation (target : Value) (name : String)
  | reader (kind : String)

/-- Why code gives no value: a document that does not follow its grammar or has none, code without a
meaning, or calls that go too deep. -/
inductive Fault where
  | violation (v : Violation)
  | unreadable (e : Document.ReadError)
  | meaningless
  | unfinished

instance : MonadLift (Except Violation) (Except Fault) := ⟨fun m => m.mapError .violation⟩

namespace Value

@[match_pattern] abbrev bool (b : Bool) : Value := .scalar (.bool b)

@[match_pattern] abbrev int (n : Int) : Value := .scalar (.int n)

@[match_pattern] abbrev text (s : String) : Value := .scalar (.string s)

def isPresent : Value → Bool
  | .none => false
  | _ => true

/-- Nothing for a null value. -/
def toOption : Value → Option Value
  | .none => Option.none
  | v => some v

def ofOption (f : α → Value) (o : Option α) : Value := (o.map f).getD .none

def asBool : Value → Except Fault Bool
  | .bool b => .ok b
  | _ => .error .meaningless

def asInt : Value → Except Fault Int
  | .int n => .ok n
  | _ => .error .meaningless

def asText : Value → Except Fault String
  | .text s => .ok s
  | _ => .error .meaningless

def asList : Value → Except Fault (List Value)
  | .list vs => .ok vs
  | _ => .error .meaningless

/-- An upper bound; a null value stands for no bound. -/
def asBound : Value → Except Fault (Option Int)
  | .none => .ok Option.none
  | v => some <$> v.asInt

end Value

/-- Names and what they stand for. -/
abbrev Locals := List (String × Value)

/-- Only what is there has a meaning. -/
def found : Option α → Except Fault α
  | some a => .ok a
  | none => .error .meaningless

/-- What follows the point after a value: a part of it, or an operation to be called. -/
def Value.part : Value → String → Except Fault Value
  | .record _ fields, name => found (fields.lookup name)
  | .attribute a, "value_count" => .ok (.int a.valueCount)
  | .document d, "root" => .ok (.element d.root)
  | v, name => .ok (.operation v name)

mutual

def Literal.value : Literal → Except Fault Value
  | .none => .ok .none
  | .bool b => .ok (.bool b)
  | .int n => .ok (.int n)
  | .number x => .ok (.scalar (.number x))
  | .string s => .ok (.text s)
  | .list items => .list <$> Literal.values items
  | .record _ => .error .meaningless
termination_by structural l => l

def Literal.values : List Literal → Except Fault (List Value)
  | [] => .ok []
  | l :: ls => do return (← l.value) :: (← Literal.values ls)
termination_by structural ls => ls

end

/-! ## Types -/

def findType (types : List DeclaredType) (name : String) : Except Fault DeclaredType :=
  found (types.find? (·.name == name))

/-- The member of an enumeration at a position. -/
def memberAt (types : List DeclaredType) : Value → Value → Except Fault Value
  | .type name, .int index => do
    match (← findType types name).shape with
    | .enumeration variants =>
      if 0 ≤ index ∧ index < variants.length then .ok (.member name index.toNat)
      else .error .meaningless
    | .record _ => .error .meaningless
  | _, _ => .error .meaningless

/-- The member of an enumeration with a name. -/
def memberNamed (types : List DeclaredType) (type member : String) : Except Fault Value := do
  match (← findType types type).shape with
  | .enumeration variants =>
    return .member type (← found (variants.findIdx? (·.name == member)))
  | .record _ => .error .meaningless

/-- The value of a new field; `new` makes records. -/
def Default.value (types : List DeclaredType) (new : String → Except Fault Value) :
    Default → Except Fault Value
  | .zero p => .ok (.scalar p.zero)
  | .none => .ok .none
  | .emptyList => .ok (.list [])
  | .newInstance type => new type
  | .member type name => memberNamed types type name
  | .foreign _ => .error .meaningless

/-- A record of the type in which every field has its default. -/
def fresh (types : List DeclaredType) : Nat → String → Except Fault Value
  | 0, _ => .error .unfinished
  | n + 1, type => do
    match (← findType types type).shape with
    | .record fields =>
      return .record type (← fields.mapM fun f => do
        return (f.name, ← f.default.value types (fresh types n)))
    | .enumeration _ => .error .meaningless

/-! ## Operations of the document library -/

def elementOperation (e : Element) : String → List Value → Except Fault Value
  | "assure_name", [.text name] => do
    e.assureName name
    return .element e
  | "assure_element_names", [.list names] => do
    e.assureElementNames (← names.mapM Value.asText)
    return .element e
  | "assure_no_elements", [] => do
    e.assureNoElements
    return .element e
  | "assure_attribute_names", [.list names] => do
    e.assureAttributeNames (← names.mapM Value.asText)
    return .element e
  | "assure_no_attributes", [] => do
    e.assureNoAttributes
    return .element e
  | "required_element", [.text name] => return .element (← e.requiredElement name)
  | "optional_element", [.text name] => return .ofOption .element (← e.optionalElement name)
  | "elements", [.text name] => return .list ((e.elements name).map .element)
  | "one_or_more_elements", [.text name] =>
    return .list ((← e.oneOrMoreElements name).map .element)
  | "required_attribute", [.text name] => return .attribute (← e.requiredAttribute name)
  | "optional_attribute", [.text name] => return .ofOption .attribute (← e.optionalAttribute name)
  | "attributes", [.text name] => return .list ((e.attributes name).map .attribute)
  | "one_or_more_attributes", [.text name] =>
    return .list ((← e.oneOrMoreAttributes name).map .attribute)
  | _, _ => .error .meaningless

/-- A value that is called with an attribute, an index and whether a null is allowed. -/
def readerOf (call : Value → List Value → Except Fault Value) (read : Value) :
    Attribute.ItemReader Value (Except Fault) := fun a index nullable =>
  Value.toOption <$> call read [.attribute a, .int index, .bool nullable]

def attributeOperation (call : Value → List Value → Except Fault Value) (a : Attribute) :
    String → List Value → Except Fault Value
  | "is_null", [.int index] => return .bool (← a.isNull index)
  | "get_enum", [.list labels, .int index, .bool nullable] => do
    let labels ← labels.mapM Value.asText
    return .ofOption (fun (i : Nat) => .int i) (← Attribute.label labels a index nullable)
  | "get_value", [.text kind, .int index, .bool nullable] =>
    return .ofOption .scalar (← Attribute.scalar kind a index nullable)
  | "as_single", [read, .bool nullable, .int min, .int max] =>
    .ofOption id <$> a.singleM (readerOf call read) nullable min (some max)
  | "as_array", [read, .int min, max, .bool nullable, .bool arrayNullable, .int arity] => do
    let max ← max.asBound
    let items ← a.arrayM (readerOf call read) min max nullable arrayNullable arity
    return .ofOption (fun vs => .list (vs.map (.ofOption id))) items
  | _, _ => .error .meaningless

def libraryOperation : Role → String → List Value → Except Fault Value
  | .attribute, "reader", [.text kind] => .ok (.reader kind)
  | .document, "parse", [.text content] =>
    match Document.parse content with
    | .ok d => .ok (.document d)
    | .error e => .error (.unreadable e)
  | _, _, _ => .error .meaningless

/-- A call of a reader that the library gave. -/
def readScalar (kind : String) : List Value → Except Fault Value
  | [.attribute a, .int index, .bool nullable] =>
    return .ofOption .scalar (← Attribute.scalar kind a index nullable)
  | _ => .error .meaningless

/-! ## Expressions and statements -/

/-- What surrounds the code of an operation: the types of the module, the type that the operation
belongs to, and what a call does. -/
structure Context where
  types : List DeclaredType
  self : String
  call : Value → List Value → Except Fault Value

namespace Context

variable (k : Context)

mutual

def eval (locals : Locals) : Expr → Except Fault Value
  | .var name => found (locals.lookup name)
  | .selfType => .ok (.type k.self)
  | .typeRef name => .ok (.type name)
  | .runtime role => .ok (.library role)
  | .attr target name => do (← eval locals target).part name
  | .call function arguments => do
    let f ← eval locals function
    k.call f (← evalAll locals arguments)
  | .literal l => l.value
  | .add left right => do
    return .int ((← (← eval locals left).asInt) + (← (← eval locals right).asInt))
  | .memberAt enumeration index => do
    memberAt k.types (← eval locals enumeration) (← eval locals index)
  | .isPresent operand => do return .bool (← eval locals operand).isPresent
  | .isAbsent operand => do return .bool !(← eval locals operand).isPresent
  | .greater left right => do
    let l ← (← eval locals left).asInt
    let r ← (← eval locals right).asInt
    return .bool (r < l)
  | .both left right => do
    let l ← (← eval locals left).asBool
    if l then eval locals right else return .bool false
  | .foreign _ => .error .meaningless
termination_by structural x => x

def evalAll (locals : Locals) : List Expr → Except Fault (List Value)
  | [] => .ok []
  | x :: xs => do return (← eval locals x) :: (← evalAll locals xs)
termination_by structural xs => xs

end

/-- What a statement leaves: the names after it, or the value that the operation gives back. -/
inductive Flow where
  | next (locals : Locals)
  | done (value : Value)

def setField (fields : List (String × Value)) (name : String) (v : Value) :
    List (String × Value) :=
  fields.map fun f => if f.1 = name then (name, v) else f

/-- A name, or a field of the record that a name stands for, gets a value. -/
def store (locals : Locals) : Expr → Value → Except Fault Locals
  | .var name, v => .ok ((name, v) :: locals)
  | .attr (.var name) field, v => do
    match ← found (locals.lookup name) with
    | .record type fields => do
      let _ ← found (fields.lookup field)
      return (name, .record type (setField fields field v)) :: locals
    | _ => .error .meaningless
  | _, _ => .error .meaningless

/-- Do the same for one value after the other. -/
def loop (body : Locals → Value → Except Fault Flow) (locals : Locals) :
    List Value → Except Fault Flow
  | [] => .ok (.next locals)
  | v :: vs => do
    match ← body locals v with
    | .next locals => loop body locals vs
    | .done value => return .done value

def runStep (locals : Locals) : Step → Except Fault Flow
  | .assign target value => do
    let v ← k.eval locals value
    return .next (← store locals target v)
  | .append target value => do
    let vs ← (← k.eval locals target).asList
    let v ← k.eval locals value
    return .next (← store locals target (.list (vs ++ [v])))
  | .giveBack value => do return .done (← k.eval locals value)
  | .evaluate value => do
    let _ ← k.eval locals value
    return .next locals
  | .foreign _ => .error .meaningless

mutual

def run (locals : Locals) : Statement → Except Fault Flow
  | .step s => k.runStep locals s
  | .block (.ifTrue condition) statements => do
    let c ← (← k.eval locals condition).asBool
    if c then runAll locals statements else return .next locals
  | .block (.forEach name items) statements => do
    let vs ← (← k.eval locals items).asList
    loop (fun locals v => runAll ((name, v) :: locals) statements) locals vs
  | .block (.foreign _) _ => .error .meaningless
termination_by structural s => s

def runAll (locals : Locals) : List Statement → Except Fault Flow
  | [] => .ok (.next locals)
  | s :: ss => do
    match ← run locals s with
    | .next locals => runAll locals ss
    | .done value => return .done value
termination_by structural ss => ss

end

/-- The parameters with their values; one that is left out has its default. -/
def bindAll : List Parameter → List Value → Except Fault Locals
  | [], [] => .ok []
  | p :: ps, v :: vs => do return (p.name, v) :: (← bindAll ps vs)
  | p :: ps, [] => do
    let v ← k.eval [] (← found p.default)
    return (p.name, v) :: (← bindAll ps [])
  | [], _ :: _ => .error .meaningless

end Context

/-! ## Calls -/

/-- An operation of a type; code that ends without a value gives none. -/
def runOperation (types : List DeclaredType) (call : Value → List Value → Except Fault Value)
    (type operation : String) (arguments : List Value) : Except Fault Value := do
  let k : Context := ⟨types, type, call⟩
  let m ← found ((← findType types type).methods.find? (·.signature.name == operation))
  let locals ← k.bindAll m.signature.parameters arguments
  match ← k.runAll locals (← found m.body.finish?) with
  | .next _ => return .none
  | .done value => return value

/-- A call, given what the calls inside it do. -/
def callWith (types : List DeclaredType) (new : String → Except Fault Value)
    (call : Value → List Value → Except Fault Value) : Value → List Value → Except Fault Value
  | .type name, [] => new name
  | .operation (.type name) operation, arguments => runOperation types call name operation arguments
  | .operation (.element e) operation, arguments => elementOperation e operation arguments
  | .operation (.attribute a) operation, arguments => attributeOperation call a operation arguments
  | .operation (.library role) operation, arguments => libraryOperation role operation arguments
  | .reader kind, arguments => readScalar kind arguments
  | _, _ => .error .meaningless

/-- What a call in the module gives if calls may go `n` deep. -/
def perform (types : List DeclaredType) : Nat → Value → List Value → Except Fault Value
  | 0, _, _ => .error .unfinished
  | n + 1, f, arguments => callWith types (fresh types n) (perform types n) f arguments

theorem perform_attribute (types : List DeclaredType) (n : Nat) (a : Attribute)
    (operation : String) (vs : List Value) :
    perform types (n + 1) (.operation (.attribute a) operation) vs =
      attributeOperation (perform types n) a operation vs := rfl

/-! ## More depth keeps what is finished -/

/-- The first computation gives what the second one gives, unless it is unfinished. -/
def Approximates (x y : Except Fault α) : Prop := x = .error .unfinished ∨ x = y

namespace Approximates

theorem refl (x : Except Fault α) : Approximates x x := .inr rfl

/-- A deeper run of a deeper run is a deeper run. -/
theorem trans {x y z : Except Fault α} (h : Approximates x y) (h' : Approximates y z) :
    Approximates x z := by
  rcases h with h | rfl
  · exact .inl h
  · exact h'

/-- Steps that are approximated one by one are approximated as a whole. -/
theorem bind {x y : Except Fault α} {f g : α → Except Fault β} (h : Approximates x y)
    (hf : ∀ a, Approximates (f a) (g a)) : Approximates (x >>= f) (y >>= g) := by
  rcases h with rfl | rfl
  · exact .inl rfl
  · cases x with
    | error e => exact .refl _
    | ok a => exact hf a

theorem map {x y : Except Fault α} (h : Approximates x y) (f : α → β) :
    Approximates (f <$> x) (f <$> y) := by
  rcases h with rfl | rfl
  · exact .inl rfl
  · exact .refl _

/-- Going through a list is approximated if each item is. -/
theorem mapM {f g : α → Except Fault β} (h : ∀ a, Approximates (f a) (g a)) (as : List α) :
    Approximates (as.mapM f) (as.mapM g) := by
  induction as with
  | nil => exact .refl _
  | cons a as ih =>
      rw [List.mapM_cons, List.mapM_cons]
      exact (h a).bind fun _ => ih.bind fun _ => .refl _

end Approximates

/-- What calls give stays the same where it is finished. -/
def Deepens (call later : Value → List Value → Except Fault Value) : Prop :=
  ∀ f vs, Approximates (call f vs) (later f vs)

section

variable {types : List DeclaredType} {self : String}
  {call later : Value → List Value → Except Fault Value}

namespace Context

mutual

/-- With deeper calls, an expression keeps every value that it has had. -/
theorem eval_mono (h : Deepens call later) (locals : Locals) : ∀ x : Expr,
    Approximates (eval ⟨types, self, call⟩ locals x) (eval ⟨types, self, later⟩ locals x)
  | .var _ | .selfType | .typeRef _ | .runtime _ | .literal _ | .foreign _ => .refl _
  | .attr target _ => (eval_mono h locals target).bind fun _ => .refl _
  | .call function arguments =>
      (eval_mono h locals function).bind fun f =>
        (evalAll_mono h locals arguments).bind fun vs => h f vs
  | .add left right =>
      (eval_mono h locals left).bind fun _ => .bind (.refl _) fun _ =>
        (eval_mono h locals right).bind fun _ => .refl _
  | .memberAt enumeration index =>
      (eval_mono h locals enumeration).bind fun _ =>
        (eval_mono h locals index).bind fun _ => .refl _
  | .isPresent operand => (eval_mono h locals operand).bind fun _ => .refl _
  | .isAbsent operand => (eval_mono h locals operand).bind fun _ => .refl _
  | .greater left right =>
      (eval_mono h locals left).bind fun _ => .bind (.refl _) fun _ =>
        (eval_mono h locals right).bind fun _ => .refl _
  | .both left right => by
      refine (eval_mono h locals left).bind fun _ => .bind (.refl _) fun l => ?_
      cases l with
      | true => exact eval_mono h locals right
      | false => exact .refl _

theorem evalAll_mono (h : Deepens call later) (locals : Locals) : ∀ xs : List Expr,
    Approximates (evalAll ⟨types, self, call⟩ locals xs) (evalAll ⟨types, self, later⟩ locals xs)
  | [] => .refl _
  | x :: xs => (eval_mono h locals x).bind fun _ => (evalAll_mono h locals xs).bind fun _ => .refl _

end

/-- With deeper calls, a step keeps every effect that it has had. -/
theorem runStep_mono (h : Deepens call later) (locals : Locals) (s : Step) :
    Approximates (runStep ⟨types, self, call⟩ locals s)
      (runStep ⟨types, self, later⟩ locals s) := by
  cases s with
  | assign target value => exact (eval_mono h locals value).bind fun _ => .refl _
  | append target value =>
      exact (eval_mono h locals target).bind fun _ => .bind (.refl _) fun _ =>
        (eval_mono h locals value).bind fun _ => .refl _
  | giveBack value => exact (eval_mono h locals value).bind fun _ => .refl _
  | evaluate value => exact (eval_mono h locals value).bind fun _ => .refl _
  | foreign => exact .refl _

/-- A loop is approximated if its body is. -/
theorem loop_mono {body after : Locals → Value → Except Fault Flow}
    (hbody : ∀ locals v, Approximates (body locals v) (after locals v)) (locals : Locals)
    (vs : List Value) : Approximates (loop body locals vs) (loop after locals vs) := by
  induction vs generalizing locals with
  | nil => exact .refl _
  | cons v vs ih =>
      refine (hbody locals v).bind fun flow => ?_
      cases flow with
      | next locals => exact ih locals
      | done => exact .refl _

mutual

/-- With deeper calls, a statement keeps every effect that it has had. -/
theorem run_mono (h : Deepens call later) (locals : Locals) : ∀ s : Statement,
    Approximates (run ⟨types, self, call⟩ locals s) (run ⟨types, self, later⟩ locals s)
  | .step s => runStep_mono h locals s
  | .block (.ifTrue condition) statements => by
      refine (eval_mono h locals condition).bind fun _ => .bind (.refl _) fun c => ?_
      cases c with
      | true => exact runAll_mono h locals statements
      | false => exact .refl _
  | .block (.forEach name items) statements =>
      (eval_mono h locals items).bind fun _ => .bind (.refl _) fun vs =>
        loop_mono (fun locals v => runAll_mono h ((name, v) :: locals) statements) locals vs
  | .block (.foreign _) _ => .refl _

theorem runAll_mono (h : Deepens call later) (locals : Locals) : ∀ ss : List Statement,
    Approximates (runAll ⟨types, self, call⟩ locals ss) (runAll ⟨types, self, later⟩ locals ss)
  | [] => .refl _
  | s :: ss => by
      refine (run_mono h locals s).bind fun flow => ?_
      cases flow with
      | next locals => exact runAll_mono h locals ss
      | done => exact .refl _

end

theorem bindAll_mono (h : Deepens call later) (ps : List Parameter) (vs : List Value) :
    Approximates (bindAll ⟨types, self, call⟩ ps vs) (bindAll ⟨types, self, later⟩ ps vs) := by
  induction ps generalizing vs with
  | nil => cases vs <;> exact .refl _
  | cons p ps ih =>
      cases vs with
      | nil =>
          exact .bind (.refl _) fun x =>
            (eval_mono h [] x).bind fun _ => (ih []).bind fun _ => .refl _
      | cons v vs => exact (ih vs).bind fun _ => .refl _

end Context

/-- With deeper calls, an operation of a declared type keeps its result. -/
theorem runOperation_mono (h : Deepens call later) (type operation : String) (vs : List Value) :
    Approximates (runOperation types call type operation vs)
      (runOperation types later type operation vs) := by
  refine .bind (.refl _) fun t => .bind (.refl _) fun m => ?_
  refine (Context.bindAll_mono h m.signature.parameters vs).bind fun locals => ?_
  exact .bind (.refl _) fun ss => (Context.runAll_mono h locals ss).bind fun _ => .refl _

/-- With deeper calls, an operation of an attribute keeps its result. -/
theorem attributeOperation_mono (h : Deepens call later) (a : Attribute) (operation : String)
    (vs : List Value) : Approximates (attributeOperation call a operation vs)
      (attributeOperation later a operation vs) := by
  have hread : ∀ read a i nullable,
      Approximates (readerOf call read a i nullable) (readerOf later read a i nullable) :=
    fun read a i nullable => (h read _).map _
  unfold attributeOperation
  split
  · exact .refl _
  · exact .refl _
  · exact .refl _
  · refine .map ?_ _
    unfold Attribute.singleM
    split
    · exact .refl _
    · exact .bind (.refl _) fun _ => hread _ _ _ _
  · refine .bind (.refl _) fun max => .bind ?_ fun _ => .refl _
    unfold Attribute.arrayM
    split
    · exact .refl _
    · exact .bind (.refl _) fun count => .map (.mapM (fun i => hread _ _ _ _) _) _
  · exact .refl _

/-- With deeper calls, calling a value keeps its result. -/
theorem callWith_mono (h : Deepens call later) {new renewed : String → Except Fault Value}
    (hnew : ∀ type, Approximates (new type) (renewed type)) (f : Value) (vs : List Value) :
    Approximates (callWith types new call f vs) (callWith types renewed later f vs) := by
  cases f with
  | type name =>
      cases vs with
      | nil => exact hnew name
      | cons => exact .refl _
  | operation target operation =>
      cases target with
      | type name => exact runOperation_mono h name operation vs
      | «attribute» a => exact attributeOperation_mono h a operation vs
      | _ => exact .refl _
  | _ => exact .refl _

end

theorem Default.value_mono {types : List DeclaredType} {new renewed : String → Except Fault Value}
    (h : ∀ type, Approximates (new type) (renewed type)) (d : Default) :
    Approximates (d.value types new) (d.value types renewed) := by
  cases d with
  | newInstance type => exact h type
  | _ => exact .refl _

/-- A new instance is the same at every greater depth. -/
theorem fresh_mono (types : List DeclaredType) (n : Nat) (type : String) :
    Approximates (fresh types n type) (fresh types (n + 1) type) := by
  induction n generalizing type with
  | zero => exact .inl rfl
  | succ n ih =>
      refine .bind (.refl _) fun t => ?_
      cases t.shape with
      | enumeration => exact .refl _
      | record fields =>
          refine .bind (.mapM (fun f => ?_) fields) fun _ => .refl _
          exact (Default.value_mono ih f.default).bind fun _ => .refl _

/-- A call that is finished gives the same if calls may go deeper. -/
theorem perform_mono (types : List DeclaredType) {n m : Nat} (hle : n ≤ m) (f : Value)
    (vs : List Value) : Approximates (perform types n f vs) (perform types m f vs) := by
  have hstep : ∀ n f vs, Approximates (perform types n f vs) (perform types (n + 1) f vs) := by
    intro n
    induction n with
    | zero => exact fun _ _ => .inl rfl
    | succ n ih => exact callWith_mono ih (fresh_mono types n)
  induction hle with
  | refl => exact .refl _
  | step _ ih => exact ih.trans (hstep _ f vs)

end Code

end SmlSchema
