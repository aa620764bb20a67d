/-! # Cutting a text into lines -/

namespace SmlSchema.Text

/-- The characters that end a line. A carriage return and a line feed together end one line. -/
def isLineEnd (c : Char) : Bool :=
  ['\n', '\r', '\x0b', '\x0c', '\x1c', '\x1d', '\x1e', '\x85', '\u2028', '\u2029'].contains c

/-- Put a character in front of the first line. -/
def consLine (c : Char) : List (List Char) → List (List Char)
  | [] => [[c]]
  | l :: ls => (c :: l) :: ls

/-- The lines without their ends; an end at the end of the text opens no further line. -/
def lineChars : List Char → List (List Char)
  | [] => []
  | '\r' :: '\n' :: cs => [] :: lineChars cs
  | c :: cs => if isLineEnd c then [] :: lineChars cs else consLine c (lineChars cs)

def lines (s : String) : List String := (lineChars s.toList).map String.ofList

/-- Every carriage return, with the line feed after it if there is one, becomes a line feed. -/
def unifyLineEndChars : List Char → List Char
  | [] => []
  | '\r' :: '\n' :: cs => '\n' :: unifyLineEndChars cs
  | c :: cs => (if c = '\r' then '\n' else c) :: unifyLineEndChars cs

def unifyLineEnds (s : String) : String := String.ofList (unifyLineEndChars s.toList)

end SmlSchema.Text
