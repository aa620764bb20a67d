import SmlSchema.Line.Token
import SmlSchema.Text.Character
import SmlSchema.Text.Quoted

/-! # Reading a line into cells

Blanks separate tokens, and a number sign starts a comment that runs to the end of the line. Tokens
that touch are refused, but only once the whole line has been cut into tokens.
-/

namespace SmlSchema.Line

/-- Why a line is refused; columns count from one. -/
inductive Flaw where
  | unexpected (column : Nat)
  | touching (token : String) (column : Nat)
deriving DecidableEq, Repr

def Flaw.message : Flaw → String
  | .unexpected column => s!"<unexpected character at column {column}>"
  | .touching token column =>
    "missing whitespace before " ++ Text.quoted token ++ s!" at column {column}"

/-- A token and the number of characters before it. -/
structure Placed where
  start : Nat
  token : Token
deriving DecidableEq, Repr

def Placed.stop (p : Placed) : Nat := p.start + p.token.text.length

def isWordChar (c : Char) : Bool := !Text.isBlank c && c != '"' && c != '#'

/-- The rest of a quoted token and what follows it. As much as possible belongs to the token: the
closing quote is the last one that leaves whole pieces before it. -/
def readPieces : List Char → Option (List Piece × List Char)
  | [] => none
  | '"' :: '"' :: cs =>
    match readPieces cs with
    | some (ps, rest) => some (.quote :: ps, rest)
    | none => some ([], '"' :: cs)
  | '"' :: '/' :: '"' :: cs =>
    match readPieces cs with
    | some (ps, rest) => some (.lineBreak :: ps, rest)
    | none => some ([], '/' :: '"' :: cs)
  | '"' :: cs => some ([], cs)
  | c :: cs => if c = '\n' then none else (readPieces cs).map fun r => (.plain c :: r.1, r.2)

/-- The token that starts with the character `c`. -/
def readToken (c : Char) (cs : List Char) : Option Token :=
  if c = '"' then (readPieces cs).map fun r => .string r.1
  else some (.word (c :: cs.takeWhile isWordChar))

/-- The tokens of a line; `start` characters stand before the text, and the first `skip` of it
belong to the token before. -/
def scan (start skip : Nat) : List Char → Except Flaw (List Placed)
  | [] => .ok []
  | c :: cs =>
    match skip with
    | k + 1 => scan (start + 1) k cs
    | 0 =>
      if c = '\n' then .error (.unexpected (start + 1))
      else if Text.isBlank c then scan (start + 1) 0 cs
      else if c = '#' then
        let comment := cs.takeWhile (· != '\n')
        if comment.length = cs.length then .ok []
        else .error (.unexpected (start + 2 + comment.length))
      else
        match readToken c cs with
        | none => .error (.unexpected (start + 1))
        | some token => do
          let more ← scan (start + 1) (token.text.length - 1) cs
          return ⟨start, token⟩ :: more

/-- The first token that stands right after another one. -/
def touching? : List Placed → Option Placed
  | a :: b :: rest => if a.stop = b.start then some b else touching? (b :: rest)
  | _ => none

def readChars (cs : List Char) : Except Flaw (List Cell) := do
  let tokens ← scan 0 0 cs
  match touching? tokens with
  | some p => .error (.touching (String.ofList p.token.text) (p.start + 1))
  | none => return tokens.map (·.token.cell)

/-- The cells of a line. -/
def read (text : String) : Except Flaw (List Cell) := readChars text.toList

end SmlSchema.Line
