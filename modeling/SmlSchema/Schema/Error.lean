import SmlSchema.Document.Reader
import SmlSchema.Document.Violation
import SmlSchema.Schema.Basic

/-! # What can be wrong with a schema -/

namespace SmlSchema

inductive Undefined where
  | definition (category : Category) (name : String) (scope : Path)
  | dataType (name : String) (scope : Path)
deriving DecidableEq, Repr

inductive Duplicate where
  | definition (category : Category) (name : String) (scope : Path)
  | label (enum label : String)
  | structValue (struct value : String)
  | entry (owner : String) (kind : NodeKind) (name : String)
deriving DecidableEq, Repr

/-- Things that do not go together. -/
inductive Misfit where
  | noLabels (enum : String)
  | requiredAfterOptional (value struct : String)
  | structValueBase (value : String)
  | dataTypeBase (shown : String)
  | nullableArrayWithoutArray
  | arrayOfOptional (struct : String)
deriving DecidableEq, Repr

/-- Things that are foreseen but not available. -/
inductive Unsupported where
  | creation (category : Category) (name : String)
  | content (kind : ReservedContent) (owner : String)
  | writingContent (kind : ReservedContent) (owner : String)
  | writingValueType (kind : ReservedKind) (name : String)
  | contentCode (kind : ReservedContent) (owner : String)
  | valueTypeCode (kind : ReservedKind) (name : String)
  | emptyStruct (name : String)
  | occurrence (occurrence : Occurrence) (kind : NodeKind) (name : String)
deriving DecidableEq, Repr

inductive RootFlaw where
  | notSet
  | none
  | notTopLevel (name : String)
deriving DecidableEq, Repr

/-- Something that is set once was set again, or was not set. -/
inductive SetOnce where
  | typeMissing (owner : String)
  | typeAgain (owner : String)
  | contentAgain (owner : String)
deriving DecidableEq, Repr

inductive NameFlaw where
  | empty
  | exhausted (name : String)
  | taken (name : String)
  | alreadyNamed (entity name : String)
  | unnamed (entity : String)
  | unregistered (entity : String)
deriving DecidableEq, Repr

/-- A type or a body of a module does not take a part. -/
inductive BuildFlaw where
  | notEnumeration (type : String)
  | notRecord (type : String)
  | nothingOpen
deriving DecidableEq, Repr

/-- Something that is needed for the part of that name is not there: the outermost scope has no
owner, an element may have no content yet, and only unordered content has entries. A number may
stand for nothing. -/
inductive Lack where
  | owner (part : String)
  | content (part : String)
  | entries (part : String)
  | number (number : Nat)
deriving DecidableEq, Repr

/-- Why an operation on a schema fails. -/
inductive Error where
  | unreadable (e : Document.ReadError)
  | violation (v : Violation)
  | undefined (u : Undefined)
  | duplicate (d : Duplicate)
  | range (r : RangeFlaw)
  | misfit (m : Misfit)
  | unsupported (u : Unsupported)
  | rootAmbiguous
  | rootUndefined (r : RootFlaw)
  | setOnce (s : SetOnce)
  | name (n : NameFlaw)
  | tooManyDigits (digits : Scalar.TooManyDigits)
  | lacking (l : Lack)
  | misbuilt (f : BuildFlaw)
deriving DecidableEq, Repr

def Undefined.message : Undefined → String
  | .definition category name scope =>
    category.word ++ s!" \"{name}\" not defined in " ++ scope.describe
  | .dataType name scope => s!"Data type \"{name}\" not defined in " ++ scope.describe

def Duplicate.message : Duplicate → String
  | .definition category name scope =>
    category.word ++ s!" \"{name}\" already exists in " ++ scope.describe
  | .label enum l => s!"EnumType \"{enum}\" declares value \"{l}\" more than once"
  | .structValue struct value => s!"Struct \"{struct}\" already contains a value \"{value}\""
  | .entry owner kind name =>
    s!"Element \"{owner}\" already contains an unordered " ++ kind.word ++ s!" with name \"{name}\""

def Misfit.message : Misfit → String
  | .noLabels enum => s!"EnumType \"{enum}\" must declare at least one value"
  | .requiredAfterOptional value struct =>
    s!"Value \"{value}\" of struct \"{struct}\" is not optional but the value before was optional"
  | .structValueBase value => s!"Struct value \"{value}\" must be a predefined type or a value type"
  | .dataTypeBase shown =>
    "Data type base must be a predefined type, a value type or a struct, not " ++ shown
  | .nullableArrayWithoutArray => "Array nullability requires an array range"
  | .arrayOfOptional struct => s!"Array of struct \"{struct}\" with optional values not allowed"

/-- The word at the start of a sentence. -/
def ReservedContent.title : ReservedContent → String
  | .ordered => "Ordered"
  | .list => "List"

def Unsupported.message : Unsupported → String
  | .creation category name =>
    category.word ++ s!" \"{name}\" cannot be created empty, use add_existing"
  | .content kind owner => kind.title ++ s!" content of element \"{owner}\" is not supported"
  | .writingContent kind owner =>
    "Serializing " ++ kind.word ++ s!" content of element \"{owner}\" is not supported"
  | .writingValueType kind name =>
    "Serializing " ++ kind.word ++ s!" value type \"{name}\" is not supported"
  | .contentCode kind owner =>
    "Code generation for " ++ kind.word ++ s!" content of element \"{owner}\" is not supported"
  | .valueTypeCode kind name =>
    "Code generation for " ++ kind.word ++ s!" value type \"{name}\" is not supported"
  | .emptyStruct name => s!"Struct \"{name}\" without values cannot be read"
  | .occurrence o kind name =>
    "Occurrence " ++ o.bounds ++ " of " ++ kind.word ++ s!" \"{name}\" is not supported"

def RootFlaw.message : RootFlaw → String
  | .notSet => "Root element not set"
  | .none => "Cannot set default root element because the schema contains no ElementDef"
  | .notTopLevel name => s!"Root element \"{name}\" is not a top-level ElementDef"

def SetOnce.message : SetOnce → String
  | .typeMissing a => s!"Data type of attribute \"{a}\" not set"
  | .typeAgain a => s!"Data type of attribute \"{a}\" already set"
  | .contentAgain e => s!"Content of element \"{e}\" already set"

def NameFlaw.message : NameFlaw → String
  | .empty => "Invalid name: empty"
  | .exhausted name => s!"Too many identical names for \"{name}\""
  | .taken name => s!"Name \"{name}\" already allocated"
  | .alreadyNamed entity name => s!"Entity {entity} already has the name \"{name}\""
  | .unnamed entity => s!"No name allocated for {entity}"
  | .unregistered entity => s!"No construct registered for {entity}"

def BuildFlaw.message : BuildFlaw → String
  | .notEnumeration t => t ++ " is not an enumerated type"
  | .notRecord t => t ++ " is not a record type"
  | .nothingOpen => "Invalid close: no open block"

def Lack.message : Lack → String
  | .owner part => s!"'NoneType' object has no attribute '{part}'"
  | .content part => s!"'NoneType' object has no attribute '{part}'"
  | .entries part => s!"'ElementContent' object has no attribute '{part}'"
  | .number n => s!"nothing has the number {n}"

def Error.message : Error → String
  | .unreadable e => e.message
  | .violation v => v.message
  | .undefined u => u.message
  | .duplicate d => d.message
  | .range r => r.message
  | .misfit m => m.message
  | .unsupported u => u.message
  | .rootAmbiguous =>
    "Cannot set default root element because the schema contains multiple ElementDefs at root level"
  | .rootUndefined r => r.message
  | .setOnce s => s.message
  | .name n => n.message
  | .tooManyDigits digits => digits.message
  | .lacking l => l.message
  | .misbuilt f => f.message

instance : MonadLift (Except Violation) (Except Error) := ⟨fun m => m.mapError .violation⟩

instance : MonadLift (Except RangeFlaw) (Except Error) := ⟨fun m => m.mapError .range⟩

end SmlSchema
