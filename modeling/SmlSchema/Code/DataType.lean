import SmlSchema.Code.Entity

/-! # Data types in generated code

For each data type: the type of a field, its default, and the expression that reads it from an
attribute.
-/

namespace SmlSchema.Code

/-- The first member of an enumeration. -/
def enumDefault (names : TypeNames) (scope : Path) (name : String) : Except Error Default := do
  let entity := Entity.valueType scope name
  let typeName ← names.nameOf entity
  match ← names.constructOf entity with
  | .enumeration first => return .member typeName first
  | _ => .error (.name (.unregistered entity.describe))

def baseType (names : TypeNames) : Base → Except Error TypeDesc
  | .value (.predefined p) => .ok (.scalar p)
  | .value (.valueType scope name) => do return .named (← names.nameOf (.valueType scope name))
  | .struct scope name => do return .named (← names.nameOf (.struct scope name))

def baseDefault (names : TypeNames) : Base → Except Error Default
  | .value (.predefined p) => .ok (.zero p)
  | .value (.valueType scope name) => enumDefault names scope name
  | .struct scope name => do return .newInstance (← names.nameOf (.struct scope name))

/-- The type itself, or the type that also has a null value. -/
def nullableIf (nullable : Bool) (t : TypeDesc) : TypeDesc := if nullable then .nullable t else t

def dataType (names : TypeNames) (t : DataType) : Except Error TypeDesc := do
  let item := nullableIf t.nullable (← baseType names t.base)
  match t.array with
  | none => return item
  | some a => return nullableIf a.nullable (.list item)

def dataDefault (names : TypeNames) (t : DataType) : Except Error Default :=
  match t.array with
  | some a => .ok (if a.nullable then .none else .emptyList)
  | none => if t.nullable then .ok .none else baseDefault names t.base

/-- What reads one item of the type from an attribute. -/
def itemReader (names : TypeNames) : Base → Except Error Expr
  | .value (.predefined p) => .ok (invoke (.runtime .attribute) "reader" [text p.name])
  | .value (.valueType scope name) => do
    return .attr (.typeRef (← names.nameOf (.valueType scope name))) "parse"
  | .struct scope name => do return .attr (.typeRef (← names.nameOf (.struct scope name))) "read"

/-- The least and the greatest number of values that an item takes up. -/
def arity (names : TypeNames) : Base → Except Error (Nat × Nat)
  | .value _ => .ok (1, 1)
  | .struct scope name => do
    match ← names.constructOf (.struct scope name) with
    | .struct s =>
      if s.values.isEmpty then .error (.unsupported (.emptyStruct s.name))
      else return (s.requiredCount, s.values.length)
    | _ => .error (.name (.unregistered (Entity.struct scope name).describe))

/-- The values of the attribute at hand, read as the type. -/
def loadValue (names : TypeNames) (t : DataType) : Except Error Expr := do
  let (least, greatest) ← arity names t.base
  let read ← itemReader names t.base
  match t.array with
  | none =>
    return invoke attributeVar "as_single" [read, flag t.nullable, count least, count greatest]
  | some a =>
    let max : Expr := .literal ((a.range.max.map fun n => .int n).getD .none)
    return invoke attributeVar "as_array"
      [read, count a.range.min, max, flag t.nullable, flag a.nullable, count greatest]

end SmlSchema.Code
