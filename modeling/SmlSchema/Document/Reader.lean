import SmlSchema.Document.Basic
import SmlSchema.Line.Reader
import SmlSchema.Text.Case
import SmlSchema.Text.Lines

/-! # Reading a document

Every line that holds cells is an attribute (several cells), the start of an element (one cell) or
its end. The last line of the document gives the keyword that ends elements.
-/

namespace SmlSchema.Document

open Line (Cell)

/-- Why a text is no document. -/
inductive Flaw where
  | badLine (text : String) (flaw : Line.Flaw)
  | empty
  | noEndKeyword
  | secondRoot
  | strayEnd
  | nullElementName
  | nullAttributeName
  | strayAttribute (name : String)
  | unclosed (name : String)
deriving DecidableEq, Repr

def Flaw.message : Flaw → String
  | .badLine text flaw => "Invalid WSV line " ++ Text.quoted text ++ ": " ++ flaw.message
  | .empty => "Document is empty"
  | .noEndKeyword => "Document must end with an end keyword line"
  | .secondRoot => "Only one root element allowed"
  | .strayEnd => "Unexpected end keyword"
  | .nullElementName => "Null value as element name is not allowed"
  | .nullAttributeName => "Null value as attribute name is not allowed"
  | .strayAttribute name => s!"Attribute \"{name}\" outside of the root element"
  | .unclosed name => s!"Element \"{name}\" not closed"

/-- A flaw and the number of the line that shows it, if one does. -/
structure ReadError where
  flaw : Flaw
  line : Option Int := none
deriving DecidableEq, Repr

def ReadError.message (e : ReadError) : String :=
  match e.line with
  | some n => e.flaw.message ++ s!" (line {n})"
  | none => e.flaw.message

/-- The cells of one line under the number `line`. -/
def readLine (text : String) (line : Option Int := none) : Except ReadError (List Cell) :=
  match Line.read text with
  | .ok cells => .ok cells
  | .error flaw => .error ⟨.badLine text flaw, line⟩

/-- A line that holds cells, with its number. -/
structure Row where
  line : Nat
  cells : List Cell
deriving DecidableEq, Repr

/-- The rows of the lines; `line` is the number of the first one. -/
def rowsFrom (line : Nat) : List String → Except ReadError (List Row)
  | [] => .ok []
  | text :: texts => do
    let cells ← readLine text (some line)
    let rows ← rowsFrom (line + 1) texts
    return if cells = [] then rows else ⟨line, cells⟩ :: rows

/-- An element that is not closed yet, with its nodes in reverse. -/
structure Unclosed where
  name : String
  nodes : List Node := []

def Unclosed.add (u : Unclosed) (n : Node) : Unclosed := { u with nodes := n :: u.nodes }

def Unclosed.element (u : Unclosed) : Element := ⟨u.name, u.nodes.reverse⟩

/-- How far the tree has grown. -/
inductive Progress where
  | before
  | inside (innermost : Unclosed) (outer : List Unclosed)
  | after (root : Element)

def sameCell : Cell → Cell → Bool
  | none, none => true
  | some a, some b => Text.sameName a b
  | _, _ => false

namespace Progress

def opening (name : String) : Progress → Except Flaw Progress
  | .before => .ok (.inside { name } [])
  | .inside u us => .ok (.inside { name } (u :: us))
  | .after _ => .error .secondRoot

def closing : Progress → Except Flaw Progress
  | .before => .error .strayEnd
  | .inside u [] => .ok (.after u.element)
  | .inside u (v :: vs) => .ok (.inside (v.add u.element.toNode) vs)
  | .after _ => .error .secondRoot

def adding (a : Attribute) : Progress → Except Flaw Progress
  | .before => .error (.strayAttribute a.name)
  | .inside u us => .ok (.inside (u.add (.attribute a)) us)
  | .after _ => .error .secondRoot

/-- A single cell closes or opens an element; several are an attribute. -/
def step (endKeyword : Cell) (cells : List Cell) (p : Progress) : Except Flaw Progress :=
  match p, cells with
  | .after _, _ => .error .secondRoot
  | p, [] => .ok p
  | p, [cell] =>
    if sameCell cell endKeyword then p.closing
    else match cell with
      | none => .error .nullElementName
      | some name => p.opening name
  | _, none :: _ :: _ => .error .nullAttributeName
  | p, some name :: v :: vs => p.adding ⟨name, v :: vs, by simp⟩

def run (endKeyword : Cell) (p : Progress) : List Row → Except ReadError Progress
  | [] => .ok p
  | row :: rows =>
    match p.step endKeyword row.cells with
    | .ok q => run endKeyword q rows
    | .error flaw => .error ⟨flaw, some row.line⟩

end Progress

/-- The tree of the rows; the last row gives the end keyword. -/
def ofRows (rows : List Row) : Except ReadError Document :=
  match rows.getLast? with
  | none => .error { flaw := .empty }
  | some last =>
    match last.cells with
    | [endKeyword] => do
      match ← Progress.before.run endKeyword rows with
      | .before => .error { flaw := .empty }
      | .inside u _ => .error { flaw := .unclosed u.name }
      | .after root => return { root, endKeyword }
    | _ => .error ⟨.noEndKeyword, some last.line⟩

def parse (text : String) : Except ReadError Document := do
  let rows ← rowsFrom 1 (Text.lines text)
  ofRows rows

end SmlSchema.Document
