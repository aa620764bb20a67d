import SmlSchema.Scalar.Decimal
import SmlSchema.Text.Character
import SmlSchema.Text.Quoted

/-! # Numbers in free notation

Blanks may stand around the number, its digits may be of any script, and single underscores may
stand between digits. Words stand for infinity and for no number.
-/

namespace SmlSchema.Scalar.FreeNumber

/-- The text writes no number. -/
structure Flaw where
  text : String
deriving DecidableEq, Repr

def Flaw.message (f : Flaw) : String := "could not convert string to float: " ++ Text.quoted f.text

/-- The separator controls are no blanks here. -/
def isSpace (c : Char) : Bool := Text.isBlank c && !('\x1c' ≤ c && c ≤ '\x1f')

/-- The ASCII digit of the same value; all but digits stay as they are. -/
def plainDigit (c : Char) : Char :=
  match Text.decimalValue? c with
  | some d => Nat.digitChar d
  | none => c

/-- The text without underscores; each of them has to stand between two digits. -/
def joinDigits (afterDigit : Bool) : List Char → Option (List Char)
  | [] => some []
  | c :: cs =>
    if c = '_' then
      if afterDigit && cs.head?.any isDecimal then joinDigits false cs else none
    else (joinDigits (isDecimal c) cs).map (c :: ·)

/-- The word for infinity or for no number, in any letter case, with a sign or not. -/
def readWord (cs : List Char) : Option Binary64 :=
  let (negative, word) := splitSign cs
  match String.ofList (word.map Char.toLower) with
  | "inf" | "infinity" => some (.infinity negative)
  | "nan" => some .nan
  | _ => none

def read? (text : String) : Option Binary64 := do
  let cs ← joinDigits false ((Text.trimEnds isSpace text.toList).map plainDigit)
  match Decimal.read? cs with
  | some d => some d.toBinary64
  | none => readWord cs

def read (text : String) : Except Flaw Binary64 :=
  match read? text with
  | some x => .ok x
  | none => .error ⟨text⟩

end SmlSchema.Scalar.FreeNumber
