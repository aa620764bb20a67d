import SmlSchema.Scalar.Binary64
import SmlSchema.Scalar.Digits

/-! # Decimal numbers and their nearest doubles -/

namespace SmlSchema.Scalar

/-- The number `digits * 10 ^ exponent`, with its sign. -/
structure Decimal where
  negative : Bool
  digits : Nat
  exponent : Int
deriving DecidableEq, Repr

namespace Decimal

/-- The exponent mark, if there is one, with a run of digits behind it and nothing else. -/
def readExponent : List Char → Option Int
  | [] => some 0
  | c :: cs =>
    if c = 'e' || c = 'E' then
      let (negative, ds) := splitSign cs
      if isDigitRun ds then
        some (if negative then -(natOfDigits ds : Int) else natOfDigits ds)
      else none
    else none

/-- Digits with at most one point among them, then maybe an exponent. -/
def read? (cs : List Char) : Option Decimal :=
  let (negative, cs) := splitSign cs
  let whole := cs.takeWhile isDecimal
  let (fraction, rest) :=
    match cs.dropWhile isDecimal with
    | '.' :: rest => (rest.takeWhile isDecimal, rest.dropWhile isDecimal)
    | rest => ([], rest)
  if whole.isEmpty && fraction.isEmpty then none
  else (readExponent rest).map fun e =>
    ⟨negative, natOfDigits (whole ++ fraction), e - fraction.length⟩

/-- The nearest double. Exponents far outside the range are decided by the number of digits. -/
def toBinary64 (d : Decimal) : Binary64 :=
  let reach := (natDigits d.digits).length + d.exponent
  if d.digits = 0 || reach < -330 then .ofMagnitude d.negative 0
  else if 310 < reach then .infinity d.negative
  else .ofMagnitude d.negative <|
    Binary64.nearestMagnitude (d.digits * Nat.pow 10 d.exponent.toNat)
      (Nat.pow 10 (-d.exponent).toNat)

end Decimal

end SmlSchema.Scalar
