import SmlSchema.Text.Character

/-! # Tokens of a line

A line is a row of cells. A cell is written as a token: a plain word, or a text between double
quotes in which two quotes stand for one and a slash between quotes stands for a line break.
-/

namespace SmlSchema.Line

/-- A cell of a line: a text, or the null value. -/
abbrev Cell := Option String

/-- What stands for one character inside a quoted token. -/
inductive Piece where
  | plain (c : Char)
  | quote
  | lineBreak
deriving DecidableEq, Repr

namespace Piece

def char : Piece → Char
  | .plain c => c
  | .quote => '"'
  | .lineBreak => '\n'

def text : Piece → List Char
  | .plain c => [c]
  | .quote => ['"', '"']
  | .lineBreak => ['"', '/', '"']

def ofChar (c : Char) : Piece :=
  if c = '"' then .quote else if c = '\n' then .lineBreak else .plain c

@[simp] theorem char_ofChar (c : Char) : (ofChar c).char = c := by
  unfold ofChar
  split
  · simp_all [char]
  · split <;> simp_all [char]

end Piece

inductive Token where
  | word (chars : List Char)
  | string (pieces : List Piece)
deriving DecidableEq, Repr

namespace Token

/-- The token as it stands in the line. -/
def text : Token → List Char
  | .word cs => cs
  | .string ps => '"' :: (ps.flatMap Piece.text ++ ['"'])

/-- A lone hyphen is the null value; between quotes it is a text. -/
def cell : Token → Cell
  | .word cs => if cs = ['-'] then none else some (String.ofList cs)
  | .string ps => some (String.ofList (ps.map Piece.char))

end Token

/-! ## Writing cells as a line

Quotes are written only where a word would be read as something else.
-/

/-- The text cannot stand in a line without quotes. -/
def needsQuotes (s : String) : Bool :=
  s == "" || s == "-" || s.toList.any fun c => Text.isBlank c || c == '"' || c == '#'

/-- The token written for a text. -/
def Token.ofText (s : String) : Token :=
  if needsQuotes s then .string (s.toList.map Piece.ofChar) else .word s.toList

def Token.ofCell : Cell → Token
  | none => .word ['-']
  | some s => .ofText s

def writeCell (cell : Cell) : String := String.ofList (Token.ofCell cell).text

/-- The cells with one space between them. -/
def write (cells : List Cell) : String := " ".intercalate (cells.map writeCell)

end SmlSchema.Line
