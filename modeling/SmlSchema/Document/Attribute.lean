import SmlSchema.Document.Basic
import SmlSchema.Document.Violation

/-! # Reading the values of an attribute

A reader takes an item from an index on. `single` reads a whole attribute as one item, `array` as a
row of items of the same number of values.
-/

namespace SmlSchema.Attribute

open Line (Cell)

/-- What reads an item at an index; the flag allows a null value. It may fail in more ways than the
operations on attributes do. -/
abbrev ItemReader (α : Type) (m : Type → Type := Except Violation) :=
  Attribute → Int → Bool → m (Option α)

def make (name : String) (values : List Cell) : Except Violation Attribute :=
  if h : values = [] then .error (.noValues name) else .ok ⟨name, values, h⟩

def valueCount (a : Attribute) : Nat := a.values.length

/-- The attribute consists of a single null value. -/
def isLoneNull (a : Attribute) : Bool := a.values = [none]

def assureValueCount (a : Attribute) (count : Int) : Except Violation Unit :=
  if (a.valueCount : Int) = count then .ok () else .error (.valueCount a.name count a.valueCount)

/-- The count lies between the bounds; no upper bound allows any count above. -/
def withinBounds (count min : Int) (max : Option Int) : Bool :=
  min ≤ count && max.all (count ≤ ·)

def assureValueBounds (a : Attribute) (min : Int) (max : Option Int) : Except Violation Unit :=
  if withinBounds a.valueCount min max then .ok ()
  else .error (.valueBounds a.name min max a.valueCount)

/-- The value at the index, which may be null. -/
def cell (a : Attribute) (index : Int) : Except Violation Cell :=
  if index < 0 then .error (.noValueAt a.name index)
  else match a.values[index.toNat]? with
    | some c => .ok c
    | none => .error (.noValueAt a.name index)

def isNull (a : Attribute) (index : Int) : Except Violation Bool :=
  (a.cell index).map (· = none)

def string (a : Attribute) (index : Int) : Except Violation String := do
  match ← a.cell index with
  | some s => return s
  | none => .error (.nullAt a.name index)

def strings (a : Attribute) : Except Violation (List String) :=
  (List.range a.valueCount).mapM fun (i : Nat) => a.string i

/-- The text of an attribute with one value. -/
def onlyString (a : Attribute) : Except Violation String := do
  a.assureValueCount 1
  a.string 0

/-- The text at the index, or nothing for a null value where that is allowed. -/
def stringOrNull (a : Attribute) (index : Int) (nullable : Bool) : Except Violation Cell := do
  match ← a.cell index with
  | some s => return some s
  | none => if nullable then return none else .error (.nullAt a.name index)

/-- The position of the value among the labels. -/
def label (labels : List String) : ItemReader Nat := fun a index nullable => do
  match ← a.stringOrNull index nullable with
  | none => return none
  | some value =>
    match labels.idxOf? value with
    | some i => return some i
    | none => .error (.notALabel a.name value labels)

/-- The value converted to the predefined type of the name. -/
def scalar (kind : String) : ItemReader Scalar := fun a index nullable => do
  match Predefined.ofName? kind with
  | none => .error (.unknownKind kind)
  | some p =>
    match ← a.stringOrNull index nullable with
    | none => return none
    | some text =>
      match p.read text with
      | .ok v => return some v
      | .error flaw => .error (.notOfKind a.name text kind flaw)

/-- Neighbouring values, one for each reader. -/
def row (readers : List (ItemReader α)) : ItemReader (List (Option α)) := fun a index nullable =>
  some <$> readers.zipIdx.mapM fun r => r.1 a (index + r.2) nullable

/-- One item that takes up a number of values within the bounds. Where a null is allowed, a single
null value may stand for the item. -/
def singleM [Monad m] [MonadLiftT (Except Violation) m] (a : Attribute) (read : ItemReader α m)
    (nullable : Bool) (min : Int) (max : Option Int) : m (Option α) := do
  if nullable && a.isLoneNull then return none
  a.assureValueBounds min max
  read a 0 nullable

def single (a : Attribute) (read : ItemReader α) (nullable : Bool := false) (min : Int := 1)
    (max : Option Int := some 1) : Except Violation (Option α) :=
  a.singleM read nullable min max

/-- The number of items of `arity` values each, within the bounds. -/
def itemCount (a : Attribute) (min : Int) (max : Option Int) (arity : Int) :
    Except Violation Nat := do
  if arity = 0 then .error .emptyRows
  if (a.valueCount : Int).fmod arity ≠ 0 then .error (.unevenRows a.name a.valueCount arity)
  let count := (a.valueCount : Int).fdiv arity
  if !withinBounds count min max then .error (.itemBounds a.name min max count)
  return count.toNat

/-- All values as items of `arity` values each. Where the array may be null, a single null value
may stand for it. -/
def arrayM [Monad m] [MonadLiftT (Except Violation) m] (a : Attribute) (read : ItemReader α m)
    (min : Int) (max : Option Int) (nullable arrayNullable : Bool) (arity : Int) :
    m (Option (List (Option α))) := do
  if arrayNullable && a.isLoneNull then return none
  let count ← a.itemCount min max arity
  some <$> (List.range count).mapM fun (i : Nat) => read a (i * arity) nullable

def array (a : Attribute) (read : ItemReader α) (min : Int := 0) (max : Option Int := none)
    (nullable arrayNullable : Bool := false) (arity : Int := 1) :
    Except Violation (Option (List (Option α))) :=
  a.arrayM read min max nullable arrayNullable arity

def describe (a : Attribute) : String :=
  "SmlAttribute(name=" ++ Text.quoted a.name ++ ", values="
    ++ Text.bracketed (a.values.map fun c => (c.map Text.quoted).getD "None") ++ ")"

end SmlSchema.Attribute
