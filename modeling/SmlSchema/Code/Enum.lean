import SmlSchema.Code.Entity

/-! # The type of an enumeration

It has a member for each label and an operation that reads a label as its member.
-/

namespace SmlSchema.Code

def emitEnum (labels : List String) : Except BuildFlaw Body := do
  let b := Body.addStep {} (.assign (.var "position") (invoke attributeVar "get_enum"
    [.literal (.list (labels.map .string)), .var "index", .var "nullable"]))
  let b := b.openBlock (.ifTrue (.isAbsent (.var "position")))
  let b ← (b.addStep (.giveBack (.literal .none))).closeBlock
  return b.addStep (.giveBack (.memberAt .selfType (.var "position")))

def declareEnum (name : String) (labels members : List String) : Except BuildFlaw DeclaredType := do
  let variants := List.zipWith (fun m l => ⟨m, .string l⟩) members labels
  let d ← variants.foldlM DeclaredType.addVariant (.newEnum name)
  return d.addMethod
    { name := "parse", parameters := readerParameters, returns := .nullable (.named name) }
    (← emitEnum labels)

def generateEnum (names : TypeNames) (scope : Path) : ValueType → Traced Error Generated
  | .reserved name kind => .fail (.unsupported (.valueTypeCode kind name))
  | .enum name labels => do
    let typeName ← names.generate (name ++ "Enum")
    report ("enum " ++ Text.quoted name ++ " -> " ++ typeName)
    let members ← ((MemberNames.start true).reserveAll labels).2
    let names ← names.add (.valueType scope name) typeName (.enumeration (members.headD ""))
    return (names, [← declareEnum typeName labels members])

end SmlSchema.Code
