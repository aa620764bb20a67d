import SmlSchema.Schema.Place

/-! # Data types and their texts

The text of a type is a base name, a question mark if items may be null, and for an array its sizes
in brackets with a question mark if the array may be null.
-/

namespace SmlSchema

/-- What is offered as the base of a type; something foreign is known by its description only. -/
inductive Candidate where
  | value (b : ValueBase)
  | struct (scope : Path) (definition : Struct)
  | foreign (shown : String)
deriving DecidableEq, Repr

/-- A predefined type, else the nearest value type of the name. -/
def Place.valueBase? (p : Place) (name : String) : Option ValueBase :=
  match Predefined.ofName? name with
  | some t => some (.predefined t)
  | none => (p.valueType? name).map fun r => .valueType r.1.path name

/-- A type of single values, else the nearest struct of the name. -/
def Place.base? (p : Place) (name : String) : Option Candidate :=
  match p.valueBase? name with
  | some b => some (.value b)
  | none => (p.struct? name).map fun r => .struct r.1.path r.2

namespace DataType

def make (c : Candidate) (nullable : Bool) (range : Option Occurrence) (arrayNullable : Bool) :
    Except Error DataType := do
  let (base, hasOptional) ← match c with
    | .value b => .ok (Base.value b, false)
    | .struct scope s => .ok (Base.struct scope s.name, s.hasOptional)
    | .foreign shown => .error (.misfit (.dataTypeBase shown))
  match range with
  | none =>
    if arrayNullable then .error (.misfit .nullableArrayWithoutArray)
    else return ⟨base, nullable, none⟩
  | some r =>
    if hasOptional then .error (.misfit (.arrayOfOptional base.name))
    else return ⟨base, nullable, some ⟨r, arrayNullable⟩⟩

/-- The text without its last characters, if those are `tail`. -/
def dropTail? (tail cs : List Char) : Option (List Char) :=
  if tail.isSuffixOf cs then some (cs.take (cs.length - tail.length)) else none

/-- The text before and after the first two dots in a row. -/
def splitDots? : List Char → Option (List Char × List Char)
  | '.' :: '.' :: cs => some ([], cs)
  | c :: cs => (splitDots? cs).map fun r => (c :: r.1, r.2)
  | [] => none

/-- A size of an array: digits, with blanks allowed around them. -/
def readBound (whole : String) (cs : List Char) : Except Error Nat :=
  let ds := Text.trimChars cs
  if !ds.isEmpty && ds.all Scalar.isDecimal then (Scalar.natOfText ds).mapError .tooManyDigits
  else .error (.range (.badSize (String.ofList ds) whole))

/-- One size, or two with dots between them, where `N` stands for no limit. -/
def readBounds (whole : String) (cs : List Char) : Except Error Occurrence :=
  match splitDots? cs with
  | none => return .fixed (← readBound whole cs)
  | some (low, high) => do
    let min ← readBound whole low
    let max ← if Text.upperChars (Text.trimChars high) = ['N'] then pure none
      else some <$> readBound whole high
    Occurrence.make (some min) (max.map Int.ofNat)

/-- The parts of a type's text: a base name, whether it is nullable, and the shape of an array. -/
structure Parts where
  base : List Char
  nullable : Bool
  range : Option Occurrence
  arrayNullable : Bool

/-- Cut a question mark off. -/
def cutMark (cs : List Char) : Bool × List Char :=
  match dropTail? ['?'] cs with
  | some rest => (true, rest)
  | none => (false, cs)

/-- Cut the question mark off that follows a closing bracket. -/
def cutArrayMark (cs : List Char) : Bool × List Char :=
  match dropTail? [']', '?'] cs with
  | some rest => (true, rest ++ [']'])
  | none => (false, cs)

/-- Cut the sizes off that stand in brackets, the first of which opens them. -/
def cutSizes (whole : String) (cs : List Char) : Except Error (Option Occurrence × List Char) :=
  match dropTail? [']'] cs with
  | none => return (none, cs)
  | some rest =>
    match rest.dropWhile (· != '[') with
    | [] => .error (.violation (.badDataType whole))
    | _ :: sizes => do return (some (← readBounds whole sizes), rest.takeWhile (· != '['))

/-- Cut the parts off from the end: the mark of a nullable array, the sizes, the mark of a nullable
item; the base name is what remains. -/
def readParts (whole : String) : Except Error Parts := do
  let (arrayNullable, cs) := cutArrayMark whole.toList
  let (range, cs) ← cutSizes whole cs
  let (nullable, cs) := cutMark cs
  if cs.isEmpty then .error (.violation (.badDataType whole))
  else return ⟨cs, nullable, range, arrayNullable⟩

/-- The type that the text writes, with names as they are seen from the place. -/
def read (p : Place) (text : String) : Except Error DataType := do
  let parts ← readParts text
  let name := String.ofList parts.base
  match p.base? name with
  | none => .error (.undefined (.dataType name p.path))
  | some c => make c parts.nullable parts.range parts.arrayNullable

end DataType

end SmlSchema
