import SmlSchema.Code.Literal
import SmlSchema.Predefined

/-! # Generated modules

The parts of a generated module: declared types with fields, variants and operations. Where a part
was given something foreign in place of a description, that is kept and found when it is written.
-/

namespace SmlSchema.Code

/-- A type of the document library that generated code works with. -/
inductive Role where
  | document
  | element
  | attribute
  | unknown (value : Literal)
deriving Repr

/-- The type of a field, a parameter or a result. -/
inductive TypeDesc where
  | scalar (p : Predefined)
  | named (name : String)
  | nullable (inner : TypeDesc)
  | list (inner : TypeDesc)
  | runtime (role : Role)
  | foreign (value : Literal)
deriving Repr

/-- The value of a field in a new record. -/
inductive Default where
  | zero (p : Predefined)
  | none
  | emptyList
  | newInstance (type : String)
  | member (type member : String)
  | foreign (value : Literal)
deriving Repr

inductive Expr where
  | var (name : String)
  | selfType
  | typeRef (name : String)
  | runtime (role : Role)
  | attr (target : Expr) (name : String)
  | call (function : Expr) (arguments : List Expr)
  | literal (value : Literal)
  | add (left right : Expr)
  | memberAt (enumeration index : Expr)
  | isPresent (operand : Expr)
  | isAbsent (operand : Expr)
  | greater (left right : Expr)
  | both (left right : Expr)
  | foreign (value : Literal)
deriving Repr

/-- A statement of one line. -/
inductive Step where
  | assign (target value : Expr)
  | append (target value : Expr)
  | giveBack (value : Expr)
  | evaluate (value : Expr)
  | foreign (value : Literal)
deriving Repr

/-- The first line of a block. -/
inductive Header where
  | ifTrue (condition : Expr)
  | forEach (name : String) (items : Expr)
  | foreign (value : Literal)
deriving Repr

structure Parameter where
  name : String
  type : TypeDesc
  default : Option Expr := none
deriving Repr

/-- An operation of a type itself, not of its instances. -/
structure Signature where
  name : String
  parameters : List Parameter
  returns : TypeDesc
deriving Repr

structure Field where
  name : String
  type : TypeDesc
  default : Default
deriving Repr

structure Variant where
  name : String
  literal : Literal
deriving Repr

inductive Shape where
  | enumeration (variants : List Variant)
  | record (fields : List Field)
deriving Repr

def Shape.word : Shape → String
  | .enumeration _ => "enum"
  | .record _ => "record"

end SmlSchema.Code
