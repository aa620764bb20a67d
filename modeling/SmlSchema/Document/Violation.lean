import SmlSchema.Scalar.Basic

/-! # Ways in which a document does not follow its grammar -/

namespace SmlSchema

inductive NodeKind where
  | element
  | attribute
deriving DecidableEq, Repr

def NodeKind.word : NodeKind → String
  | .element => "element"
  | .attribute => "attribute"

/-- The bounds of a count as they are written in messages; no upper bound is `N`. -/
def countBounds (min : Int) (max : Option Int) : String :=
  s!"{min}.." ++ (max.map toString).getD "N"

inductive Violation where
  | noValues (owner : String)
  | valueCount (owner : String) (wanted : Int) (actual : Nat)
  | valueBounds (owner : String) (min : Int) (max : Option Int) (actual : Nat)
  | noValueAt (owner : String) (index : Int)
  | nullAt (owner : String) (index : Int)
  | notALabel (owner value : String) (labels : List String)
  | unknownKind (kind : String)
  | notOfKind (owner value kind : String) (flaw : Scalar.Flaw)
  | emptyRows
  | unevenRows (owner : String) (count : Nat) (arity : Int)
  | itemBounds (owner : String) (min : Int) (max : Option Int) (actual : Int)
  | notOne (owner : String) (kind : NodeKind) (name : String) (actual : Nat)
  | moreThanOne (owner : String) (kind : NodeKind) (name : String) (actual : Nat)
  | missing (owner : String) (kind : NodeKind) (name : String)
  | wrongName (expected actual : String)
  | unexpected (owner : String) (kind : NodeKind) (name : String)
  | forbidden (owner : String) (kind : NodeKind)
  | severalChoices (owner : String) (names : List String)
  | noChoice (owner : String) (names : List String)
  | badDataType (text : String)
deriving DecidableEq, Repr

namespace Violation

def message : Violation → String
  | .noValues a => s!"Attribute \"{a}\" must have at least one value"
  | .valueCount a wanted actual =>
    s!"Attribute \"{a}\" must have {wanted} value(s) but has {actual}"
  | .valueBounds a min max actual =>
    s!"Attribute \"{a}\" must have " ++ countBounds min max ++ s!" values but has {actual}"
  | .noValueAt a index => s!"Attribute \"{a}\" has no value at index {index}"
  | .nullAt a index => s!"Attribute \"{a}\" value {index} must not be null"
  | .notALabel a value labels =>
    s!"Attribute \"{a}\" value \"{value}\" is not one of: " ++ ", ".intercalate labels
  | .unknownKind kind => s!"Unknown value kind \"{kind}\""
  | .notOfKind a value kind flaw =>
    s!"Attribute \"{a}\" value \"{value}\" is not a valid {kind}: " ++ flaw.message
  | .emptyRows => "integer modulo by zero"
  | .unevenRows a count arity =>
    s!"Attribute \"{a}\" value count {count} is not a multiple of {arity}"
  | .itemBounds a min max actual =>
    s!"Attribute \"{a}\" must have " ++ countBounds min max ++ s!" items but has {actual}"
  | .notOne e kind name actual =>
    s!"Element \"{e}\" must contain exactly one " ++ kind.word
      ++ s!" \"{name}\" but contains {actual}"
  | .moreThanOne e kind name actual =>
    s!"Element \"{e}\" must contain at most one " ++ kind.word
      ++ s!" \"{name}\" but contains {actual}"
  | .missing e kind name =>
    s!"Element \"{e}\" must contain at least one " ++ kind.word ++ s!" \"{name}\""
  | .wrongName expected actual =>
    s!"Element with name \"{expected}\" expected but found \"{actual}\""
  | .unexpected e kind name =>
    s!"Element \"{e}\" contains unexpected " ++ kind.word ++ s!" \"{name}\""
  | .forbidden e kind => s!"Element \"{e}\" must not contain " ++ kind.word ++ "s"
  | .severalChoices e names =>
    s!"Element \"{e}\" must contain only one of: " ++ ", ".intercalate names
  | .noChoice e names => s!"Element \"{e}\" must contain one of: " ++ ", ".intercalate names
  | .badDataType text => s!"Invalid data type \"{text}\""

end Violation

end SmlSchema
