import SmlSchema.Code.DataType

/-! # Fields and the entries that fill them

A field of a struct is filled from the value at its position, a field of an element from the nodes
of its name.
-/

namespace SmlSchema.Code

/-- What a field is filled from, with the expression that loads it. -/
inductive Filling where
  | value (v : StructValue) (position : Nat) (load : Expr)
  | nodes (occurrence : Occurrence) (kind : NodeKind) (holder name : String) (load : Expr)

structure FieldCode where
  field : Field
  filling : Filling

/-- Make the parts one after the other, each with the names that the one before left. -/
def gather (make : MemberNames → α → Except Error (MemberNames × FieldCode))
    (fields : MemberNames) : List α → Except Error (MemberNames × List FieldCode)
  | [] => .ok (fields, [])
  | a :: as => do
    let (fields, c) ← make fields a
    let (fields, cs) ← gather make fields as
    return (fields, c :: cs)

/-- Load a value into the field. An optional one is read only if the attribute is long enough. -/
def emitValue (b : Body) (v : StructValue) (position : Nat) (fieldName : String) (load : Expr) :
    Except BuildFlaw Body :=
  let assign := Step.assign (.attr resultVar fieldName) load
  if v.optional then
    let given := Expr.greater (.attr attributeVar "value_count") (indexPlus position)
    let b := b.openBlock (.ifTrue given)
    (b.addStep assign).closeBlock
  else .ok (b.addStep assign)

/-- Find the nodes of the name and load each into the field. -/
def emitNodes (b : Body) (o : Occurrence) (kind : NodeKind) (holder nodeName fieldName : String)
    (load : Expr) : Except BuildFlaw Body :=
  let target := Expr.attr resultVar fieldName
  let find (operation : String) : Expr := invoke elementVar operation [text nodeName]
  if o.isRequired then
    let b := b.addStep (.assign (.var holder) (find ("required_" ++ kind.word)))
    .ok (b.addStep (.assign target load))
  else if o.isOptional then
    let b := b.addStep (.assign (.var holder) (find ("optional_" ++ kind.word)))
    let b := b.openBlock (.ifTrue (.isPresent (.var holder)))
    (b.addStep (.assign target load)).closeBlock
  else
    let operation := (if o.isRepeatedPlus then "one_or_more_" else "") ++ kind.word ++ "s"
    let b := b.openBlock (.forEach holder (find operation))
    (b.addStep (.append target load)).closeBlock

def FieldCode.emit (c : FieldCode) (b : Body) : Except BuildFlaw Body :=
  match c.filling with
  | .value v position load => emitValue b v position c.field.name load
  | .nodes o kind holder name load => emitNodes b o kind holder name c.field.name load

/-- Add each field to the record and what fills it to the body. -/
def emitFields (d : DeclaredType) (b : Body) (cs : List FieldCode) :
    Except BuildFlaw (DeclaredType × Body) :=
  cs.foldlM (fun (d, b) c => do return (← d.addField c.field, ← c.emit b)) (d, b)

end SmlSchema.Code
