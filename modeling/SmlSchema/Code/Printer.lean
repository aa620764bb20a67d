import SmlSchema.Code.Body

/-! # Writing a module in the target language, Python

Enumerations and records become classes, operations become class methods, and the depth of a
statement becomes its indentation. The only failures are parts that have no description.
-/

namespace SmlSchema.Code

/-- Why a module cannot be written. -/
inductive PrintError where
  | unknownType (value : Literal)
  | unknownDefault (value : Literal)
  | unknownExpr (value : Literal)
  | unknownStep (value : Literal)
  | unknownHeader (value : Literal)
  | noLiteral (value : Literal)
  | unknownRole (value : Literal)
  | roleOfParts (kind : String)
  | openBlock
deriving Repr

def PrintError.message : PrintError → String
  | .unknownType v => "Unknown type description " ++ v.describe
  | .unknownDefault v => "Unknown default " ++ v.describe
  | .unknownExpr v => "Unknown expression " ++ v.describe
  | .unknownStep v => "Unknown statement " ++ v.describe
  | .unknownHeader v => "Unknown block header " ++ v.describe
  | .noLiteral v => "Unsupported literal " ++ v.describe
  | .unknownRole v => v.describe
  | .roleOfParts kind => "unhashable type: '" ++ kind ++ "'"
  | .openBlock => "Method body has an unclosed block"

abbrev Printed (α : Type) := Except PrintError α

/-- A role is looked up by its value, which a list or a record cannot serve for. -/
def Role.code : Role → Printed String
  | .document => .ok "SmlDocument"
  | .element => .ok "SmlElement"
  | .attribute => .ok "SmlAttribute"
  | .unknown (.list _) => .error (.roleOfParts "list")
  | .unknown (.record _) => .error (.roleOfParts "dict")
  | .unknown v => .error (.unknownRole v)

def scalarCode : Predefined → String
  | .bool => "bool"
  | .int => "int"
  | .uint => "int"
  | .number => "float"
  | .string => "str"
  | .date => "datetime.date"
  | .time => "datetime.time"
  | .base64 => "bytes"
  | .dateTime => "datetime.datetime"

def zeroCode : Predefined → String
  | .bool => "False"
  | .int => "0"
  | .uint => "0"
  | .number => "0.0"
  | .string => "\"\""
  | .date => "datetime.date(1970, 1, 1)"
  | .time => "datetime.time(0, 0)"
  | .base64 => "b\"\""
  | .dateTime => "datetime.datetime(1970, 1, 1)"

def TypeDesc.code : TypeDesc → Printed String
  | .scalar p => .ok (scalarCode p)
  | .named n => .ok n
  | .runtime r => r.code
  | .nullable t => do return "Optional[" ++ (← t.code) ++ "]"
  | .list t => do return "List[" ++ (← t.code) ++ "]"
  | .foreign v => .error (.unknownType v)

def Default.code : Default → Printed String
  | .zero p => .ok (zeroCode p)
  | .none => .ok "None"
  | .emptyList => .ok "field(default_factory=list)"
  | .newInstance t => .ok ("field(default_factory=lambda: " ++ t ++ "())")
  | .member t m => .ok (t ++ "." ++ m)
  | .foreign v => .error (.unknownDefault v)

mutual

def Literal.code : Literal → Printed String
  | .none => .ok "None"
  | .bool b => .ok (Literal.boolText b)
  | .int n => .ok (toString n)
  | .number x => .ok x.text
  | .string s => .ok (Literal.stringText s)
  | .list items => do return Text.bracketed (← Literal.codeAll items)
  | .record fields => .error (.noLiteral (.record fields))
termination_by structural l => l

def Literal.codeAll : List Literal → Printed (List String)
  | [] => .ok []
  | l :: ls => do return (← l.code) :: (← Literal.codeAll ls)
termination_by structural ls => ls

end

/-- Adding the literal zero changes nothing and is left out. -/
def Expr.isZero : Expr → Bool
  | .literal l => l.isZero
  | _ => false

mutual

def Expr.code : Expr → Printed String
  | .var n => .ok n
  | .selfType => .ok "cls"
  | .typeRef n => .ok n
  | .runtime r => r.code
  | .attr e n => do return (← e.code) ++ "." ++ n
  | .call f args => do
    let args ← Expr.codeAll args
    return (← f.code) ++ "(" ++ ", ".intercalate args ++ ")"
  | .literal l => l.code
  | .add a b =>
    if b.isZero then a.code else do return (← a.code) ++ " + " ++ (← b.code)
  | .memberAt e i => do return "list(" ++ (← e.code) ++ ")[" ++ (← i.code) ++ "]"
  | .isPresent e => do return (← e.code) ++ " is not None"
  | .isAbsent e => do return (← e.code) ++ " is None"
  | .greater a b => do return (← a.code) ++ " > " ++ (← b.code)
  | .both a b => do return (← a.code) ++ " and " ++ (← b.code)
  | .foreign v => .error (.unknownExpr v)
termination_by structural e => e

def Expr.codeAll : List Expr → Printed (List String)
  | [] => .ok []
  | e :: es => do return (← e.code) :: (← Expr.codeAll es)
termination_by structural es => es

end

def Step.code : Step → Printed String
  | .assign t e => do return (← t.code) ++ " = " ++ (← e.code)
  | .append t e => do return (← t.code) ++ ".append(" ++ (← e.code) ++ ")"
  | .giveBack e => do return "return " ++ (← e.code)
  | .evaluate e => e.code
  | .foreign v => .error (.unknownStep v)

def Header.code : Header → Printed String
  | .ifTrue e => do return "if " ++ (← e.code) ++ ":"
  | .forEach x e => do return "for " ++ x ++ " in " ++ (← e.code) ++ ":"
  | .foreign v => .error (.unknownHeader v)

/-- Four spaces for each level; below level zero there are none. -/
def indent (level : Int) : String := String.ofList (List.replicate (4 * level.toNat) ' ')

/-- A body that is being written: its lines so far, the level of the next line, and for each block
that is open, from the inside to the outside, whether it has no line yet. -/
structure BodyWriter where
  lines : List String := []
  level : Int
  emptyBlocks : List Bool := []

namespace BodyWriter

/-- The innermost block is not empty any more. -/
def markUsed : List Bool → List Bool
  | [] => []
  | _ :: blocks => false :: blocks

def addLine (w : BodyWriter) (text : String) : BodyWriter :=
  { w with lines := w.lines ++ [indent w.level ++ text] }

/-- A block that is closed without a line is filled by one that does nothing. -/
def write (w : BodyWriter) : Entry → Printed BodyWriter
  | .step s => do
    return { w.addLine (← s.code) with emptyBlocks := markUsed w.emptyBlocks }
  | .openBlock h => do
    let w := { w.addLine (← h.code) with emptyBlocks := true :: markUsed w.emptyBlocks }
    return { w with level := w.level + 1 }
  | .closeBlock =>
    let w := if w.emptyBlocks.headD false then w.addLine "pass" else w
    return { w with level := w.level - 1, emptyBlocks := w.emptyBlocks.tail }

end BodyWriter

/-- The lines of a body whose blocks are all closed; if there is none, then one that does
nothing. -/
def Body.code (b : Body) (level : Int) : Printed (List String) :=
  if b.isClosed then do
    let w ← b.entries.foldlM BodyWriter.write { level }
    return if w.lines.isEmpty then [indent level ++ "pass"] else w.lines
  else .error .openBlock

def Parameter.code (p : Parameter) : Printed String := do
  let type ← p.type.code
  match p.default with
  | none => return p.name ++ ": " ++ type
  | some e => return p.name ++ ": " ++ type ++ " = " ++ (← e.code)

def Signature.code (s : Signature) : Printed String := do
  let parameters ← s.parameters.mapM Parameter.code
  return "def " ++ s.name ++ "(" ++ ", ".intercalate ("cls" :: parameters) ++ ") -> "
    ++ (← s.returns.code) ++ ":"

def Method.code (m : Method) : Printed (List String) := do
  let signature ← m.signature.code
  let body ← m.body.code 2
  return ["", indent 1 ++ "@classmethod", indent 1 ++ signature] ++ body

def Variant.code (v : Variant) : Printed String := do
  return indent 1 ++ v.name ++ " = " ++ (← v.literal.code)

def Field.code (f : Field) : Printed String := do
  let type ← f.type.code
  return indent 1 ++ f.name ++ ": " ++ type ++ " = " ++ (← f.default.code)

/-- The lines of a type; a record without any content is filled by a line that does nothing. -/
def DeclaredType.code (d : DeclaredType) : Printed (List String) := do
  let doc := if d.doc = "" then [] else [indent 1 ++ "\"\"\"" ++ d.doc ++ "\"\"\""]
  match d.shape with
  | .enumeration variants =>
    let variants ← variants.mapM Variant.code
    let methods ← d.methods.mapM Method.code
    return ["class " ++ d.name ++ "(Enum):"] ++ doc ++ variants ++ methods.flatten
  | .record fields =>
    let fields ← fields.mapM Field.code
    let methods ← d.methods.mapM Method.code
    let content := doc ++ fields ++ methods.flatten
    return ["@dataclass", "class " ++ d.name ++ ":"]
      ++ (if content.isEmpty then [indent 1 ++ "pass"] else content)

def Module.head (m : Module) : List String :=
  ["# This module was generated. Do not modify. Changes might be overwritten.",
   "from __future__ import annotations",
   "",
   "import datetime",
   "from dataclasses import dataclass, field",
   "from enum import Enum",
   "from typing import List, Optional",
   "",
   "from " ++ m.runtime ++ " import SmlAttribute, SmlDocument, SmlElement"]

/-- Two empty lines stand before each type. -/
def Module.code (m : Module) : Printed String := do
  let types ← m.types.mapM DeclaredType.code
  return "\n".intercalate (m.head ++ types.flatMap (["", ""] ++ ·)) ++ "\n"

end SmlSchema.Code
