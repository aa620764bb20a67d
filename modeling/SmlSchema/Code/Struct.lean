import SmlSchema.Code.Field

/-! # The type of a struct

It has a field for each value and an operation that reads neighbouring values of an attribute into
the fields.
-/

namespace SmlSchema.Code

/-- The value at the position, read as its type. -/
def loadStructValue (names : TypeNames) (position : Nat) (v : StructValue) : Except Error Expr :=
  match v.base with
  | .predefined p =>
    .ok (invoke attributeVar "get_value" [text p.name, indexPlus position, flag v.nullable])
  | .valueType scope name => do
    return invoke (.typeRef (← names.nameOf (.valueType scope name))) "parse"
      [attributeVar, indexPlus position, flag v.nullable]

def structField (names : TypeNames) (fields : MemberNames) (v : StructValue × Nat) :
    Except Error (MemberNames × FieldCode) := do
  let (v, position) := v
  let (name, fields) ← fields.reserve v.name
  let type ← baseType names (.value v.base)
  let default ← baseDefault names (.value v.base)
  let load ← loadStructValue names position v
  let mayMiss := v.nullable || v.optional
  return (fields, {
    field :=
      { name, type := nullableIf mayMiss type, default := if mayMiss then .none else default }
    filling := .value v position load })

def declareStruct (name : String) (cs : List FieldCode) : Except BuildFlaw DeclaredType := do
  let b := Body.openBlock {}
    (.ifTrue (.both (.var "nullable") (invoke attributeVar "is_null" [.var "index"])))
  let b ← (b.addStep (.giveBack (.literal .none))).closeBlock
  let b := b.addStep (.assign resultVar (.call .selfType []))
  let (d, b) ← emitFields (.newRecord name) b cs
  return d.addMethod
    { name := "read", parameters := readerParameters, returns := .nullable (.named name) }
    (b.addStep (.giveBack resultVar))

def generateStruct (names : TypeNames) (scope : Path) (s : Struct) : Traced Error Generated := do
  let typeName ← names.generate (s.name ++ "Struct")
  let names ← names.add (.struct scope s.name) typeName (.struct s)
  report ("struct " ++ Text.quoted s.name ++ " -> " ++ typeName)
  let (_, cs) ← gather (structField names) (.start false) s.values.zipIdx
  return (names, [← declareStruct typeName cs])

end SmlSchema.Code
