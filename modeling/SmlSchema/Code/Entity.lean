import SmlSchema.Code.Body
import SmlSchema.Code.Identifier
import SmlSchema.Names
import SmlSchema.Computation

/-! # Definitions and the types that are made for them

Every enumeration, struct and element of a schema is an entity that gets a type of its own. The
names of types are distinct in the module, the names of members in their type.
-/

namespace SmlSchema

/-- A definition that has a type of its own in the module. -/
inductive Entity where
  | valueType (scope : Path) (name : String)
  | struct (scope : Path) (name : String)
  | element (scope : Path) (name : String)
deriving DecidableEq, Repr

def Entity.describe : Entity → String
  | .valueType _ name => "EnumTypeDef(name=" ++ Text.quoted name ++ ")"
  | .struct _ name => "StructDef(name=" ++ Text.quoted name ++ ")"
  | .element _ name => describeElement name

/-- What later types have to know of a type. -/
inductive Made where
  | enumeration (firstMember : String)
  | struct (definition : Struct)
  | element
deriving DecidableEq, Repr

namespace Code

/-- The names of the types of a module. -/
abbrev TypeNames := Names Entity Made

/-- The names of the members of one type. -/
abbrev MemberNames := Names Empty Unit

def TypeNames.start : TypeNames := { normalize := identifier true, describe := Entity.describe }

def MemberNames.start (toUpper : Bool) : MemberNames :=
  { normalize := identifier toUpper, describe := fun e => nomatch e }

instance : MonadLift (Except NameFlaw) (Except Error) := ⟨fun m => m.mapError .name⟩

instance : MonadLift (Except BuildFlaw) (Except Error) := ⟨fun m => m.mapError .misbuilt⟩

def report (message : String) : Traced Error Unit := .report .generator message

/-- The type names after a definition, and the types that were made for it. -/
abbrev Generated := TypeNames × List DeclaredType

/-! ## Parts of code -/

def text (s : String) : Expr := .literal (.string s)

def flag (b : Bool) : Expr := .literal (.bool b)

def count (n : Nat) : Expr := .literal (.int n)

/-- A call of an operation of a target. -/
def invoke (target : Expr) (operation : String) (arguments : List Expr := []) : Expr :=
  .call (.attr target operation) arguments

def attributeVar : Expr := .var "attribute"

def elementVar : Expr := .var "element"

def resultVar : Expr := .var "result"

/-- The position in an attribute that lies `n` values after the index. -/
def indexPlus (n : Nat) : Expr := .add (.var "index") (count n)

/-- The parameters of an operation that reads an item of an attribute. -/
def readerParameters : List Parameter :=
  [{ name := "attribute", type := .runtime .attribute },
   { name := "index", type := .scalar .int, default := some (count 0) },
   { name := "nullable", type := .scalar .bool, default := some (flag false) }]

end Code

end SmlSchema
