import SmlSchema.Scalar.Shortest
import SmlSchema.Text.Quoted

/-! # Literals -/

namespace SmlSchema.Code

/-- A value that may stand in code. A record of named fields is a value, but it has no literal. -/
inductive Literal where
  | none
  | bool (value : Bool)
  | int (value : Int)
  | number (value : Scalar.Binary64)
  | string (value : String)
  | list (items : List Literal)
  | record (fields : List (String × Literal))
deriving Repr, Inhabited

namespace Literal

/-- A 16 bit unit as an escape. -/
def unitEscape (n : Nat) : List Char := '\\' :: 'u' :: Text.hexDigits 4 n

/-- Only printable ASCII characters stand for themselves; above 16 bits an escape takes two
units. -/
def escapeChar (c : Char) : List Char :=
  if c = '"' then ['\\', '"']
  else if c = '\\' then ['\\', '\\']
  else if c = '\n' then ['\\', 'n']
  else if c = '\r' then ['\\', 'r']
  else if c = '\t' then ['\\', 't']
  else if c = '\x08' then ['\\', 'b']
  else if c = '\x0c' then ['\\', 'f']
  else
    let n := c.toNat
    if 0x20 ≤ n && n < 0x7F then [c]
    else if n < 0x10000 then unitEscape n
    else
      let m := n - 0x10000
      unitEscape (0xD800 + m / 0x400) ++ unitEscape (0xDC00 + m % 0x400)

/-- A text between double quotes. -/
def stringText (s : String) : String :=
  String.ofList ('"' :: (s.toList.flatMap escapeChar ++ ['"']))

def boolText (b : Bool) : String := if b then "True" else "False"

mutual

/-- The value as it is shown in messages. -/
def describe : Literal → String
  | .none => "None"
  | .bool b => boolText b
  | .int n => toString n
  | .number x => x.text
  | .string s => Text.quoted s
  | .list items => Text.bracketed (describeAll items)
  | .record fields => "\x7b" ++ ", ".intercalate (describeFields fields) ++ "\x7d"
termination_by structural l => l

def describeAll : List Literal → List String
  | [] => []
  | l :: ls => l.describe :: describeAll ls
termination_by structural ls => ls

def describeFields : List (String × Literal) → List String
  | [] => []
  | f :: fs => describeField f :: describeFields fs
termination_by structural fs => fs

def describeField : String × Literal → String
  | (name, value) => Text.quoted name ++ ": " ++ value.describe
termination_by structural f => f

end

/-- The value is equal to zero, where false counts as zero. -/
def isZero : Literal → Bool
  | .bool b => !b
  | .int n => n = 0
  | .number x => x.isZero
  | _ => false

end Literal

end SmlSchema.Code
