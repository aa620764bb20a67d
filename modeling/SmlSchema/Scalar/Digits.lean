/-! # Decimal digits -/

namespace SmlSchema.Scalar

/-- One of the ten ASCII digits. -/
def isDecimal (c : Char) : Bool := '0' ≤ c && c ≤ '9'

def digitValue (c : Char) : Nat := c.toNat - '0'.toNat

/-- The number that the digits write. -/
def natOfDigits (ds : List Char) : Nat := ds.foldl (fun n d => 10 * n + digitValue d) 0

/-- A number is written with its decimal digits. -/
def natDigits (n : Nat) : List Char := Nat.toDigits 10 n

/-- The longest integer text that is converted, not counting the sign. -/
def maxIntegerDigits : Nat := 4300

/-- The digits of an integer are too many to convert. -/
structure TooManyDigits where
  count : Nat
deriving DecidableEq, Repr

def TooManyDigits.message (t : TooManyDigits) : String :=
  s!"Exceeds the limit ({maxIntegerDigits} digits) for integer string conversion: value has "
    ++ s!"{t.count} digits; use sys.set_int_max_str_digits() to increase the limit"

/-- The number of a run of digits, refused when it is longer than the limit. -/
def natOfText (ds : List Char) : Except TooManyDigits Nat :=
  if ds.length > maxIntegerDigits then .error ⟨ds.length⟩ else .ok (natOfDigits ds)

/-- A leading sign (true for minus) and what follows it. -/
def splitSign : List Char → Bool × List Char
  | '-' :: cs => (true, cs)
  | '+' :: cs => (false, cs)
  | cs => (false, cs)

/-- A nonempty run of digits and nothing else. -/
def isDigitRun (cs : List Char) : Bool := !cs.isEmpty && cs.all isDecimal

end SmlSchema.Scalar
