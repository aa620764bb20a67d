import SmlSchema.Code.Element
import SmlSchema.Code.Enum
import SmlSchema.Code.Printer
import SmlSchema.Code.Struct

/-! # The module of a schema

Enumerations come first, then structs, then elements, each from the outermost scope to the inner
ones. An element stands before the elements of its own scope.
-/

namespace SmlSchema

/-- Why no module is made. -/
inductive GenerateError where
  | failed (cause : Error)
  | misbuilt (flaw : BuildFlaw)
  | unprintable (e : Code.PrintError)
deriving Repr

def GenerateError.message : GenerateError → String
  | .failed cause => "Could not generate code because " ++ cause.message
  | .misbuilt flaw => flaw.message
  | .unprintable e => e.message

namespace Code

/-- Make the types of the definitions one after the other. -/
def generateAll (make : TypeNames → Path → α → Traced Error Generated) (names : TypeNames) :
    List (Path × α) → Traced Error Generated
  | [] => pure (names, [])
  | (scope, a) :: rest => do
    let (names, types) ← make names scope a
    let (names, more) ← generateAll make names rest
    return (names, types ++ more)

end Code

namespace Schema

/-- All value types with their scopes, from the outermost scope to the inner ones. -/
def allValueTypes (s : Schema) : List (Path × ValueType) :=
  s.scopes.flatMap fun (path, scope) => scope.valueTypes.map (path, ·)

/-- All structs with their scopes, from the outermost scope to the inner ones. -/
def allStructs (s : Schema) : List (Path × Struct) :=
  s.scopes.flatMap fun (path, scope) => scope.structs.map (path, ·)

/-- The types of the module of the schema, and the names that its definitions have there. -/
def declarations (s : Schema) : Traced Error Code.Generated := do
  let (names, enums) ← Code.generateAll Code.generateEnum .start s.allValueTypes
  let (names, structs) ← Code.generateAll Code.generateStruct names s.allStructs
  let (names, elements) ← Code.generateElements s [] names s.definitions.elements
  return (names, enums ++ structs ++ elements)

/-- The text of the module; `runtime` is the module that holds the document library. -/
def generate (s : Schema) (runtime : String := "sml_document") : Traced GenerateError String :=
  let t := s.declarations
  match t.result with
  | .error (.misbuilt flaw) => ⟨t.log, .error (.misbuilt flaw)⟩
  | .error e => ⟨t.log ++ [⟨.generator, "generation failed: " ++ e.message⟩], .error (.failed e)⟩
  | .ok (_, types) => ⟨t.log, (Code.Module.code { runtime, types }).mapError .unprintable⟩

end Schema

end SmlSchema
