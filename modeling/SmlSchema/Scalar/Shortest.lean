import SmlSchema.Scalar.Binary64
import SmlSchema.Scalar.Digits

/-! # The fewest digits that read back as the same double -/

namespace SmlSchema.Scalar

/-- Decimal digits without zeros at the end; the point stands behind the first `point` of them. -/
structure Shortest where
  digits : List Char
  point : Int
deriving DecidableEq, Repr

namespace Shortest

/-- `n * 10 ^ exponent` in that form. -/
def ofScaled (n : Nat) (exponent : Int) : Shortest :=
  let ds := natDigits n
  ⟨(ds.reverse.dropWhile (· == '0')).reverse, ds.length + exponent⟩

/-- `n * 10 ^ exponent` rounds to the magnitude. -/
def readsBack (magnitude n : Nat) (exponent : Int) : Bool :=
  Binary64.nearestMagnitude (n * Nat.pow 10 exponent.toNat) (Nat.pow 10 (-exponent).toNat) ==
    magnitude

/-- On the grid of multiples of `10 ^ exponent`, the neighbour of `num / den` that reads back; the
nearer one if both do, and of two equally near ones the even one. -/
def onGrid (magnitude num den : Nat) (exponent : Int) : Option Nat :=
  let n := num * Nat.pow 10 (-exponent).toNat
  let d := den * Nat.pow 10 exponent.toNat
  let below := n / d
  match readsBack magnitude below exponent, readsBack magnitude (below + 1) exponent with
  | true, true => some (roundQuotient n d)
  | true, false => some below
  | false, true => some (below + 1)
  | false, false => none

/-- Try `digits` digits, then one more, and so on for `tries` further ones. -/
def search (magnitude num den : Nat) (top : Int) (digits : Nat) : Nat → Option Shortest
  | 0 => none
  | tries + 1 =>
    let exponent := top - digits + 1
    match onGrid magnitude num den exponent with
    | some n => some (ofScaled n exponent)
    | none => search magnitude num den top (digits + 1) tries

/-- Far enough below the least double that its first digit is seen. -/
private def depth : Nat := 400

/-- The digits of a positive finite magnitude; seventeen always suffice. -/
def ofMagnitude (magnitude : Nat) : Option Shortest :=
  let q := Binary64.scale magnitude
  let num := Binary64.significand magnitude * Nat.pow 2 q.toNat
  let den := Nat.pow 2 (-q).toNat
  let top : Int := ((natDigits (num * Nat.pow 10 depth / den)).length : Int) - 1 - depth
  search magnitude num den top 1 17

end Shortest

/-- Positional up to sixteen digits before the point and three zeros after it, else one digit, the
others behind a point, and an exponent of at least two digits. -/
def Shortest.written (s : Shortest) : List Char :=
  let e := s.point - 1
  if -4 ≤ e && e < 16 then
    if s.point ≤ 0 then
      '0' :: '.' :: (List.replicate (-s.point).toNat '0' ++ s.digits)
    else
      let whole := s.point.toNat
      let fraction := s.digits.drop whole
      s.digits.take whole ++ List.replicate (whole - s.digits.length) '0'
        ++ '.' :: (if fraction.isEmpty then ['0'] else fraction)
  else
    let fraction := s.digits.drop 1
    let exponent := natDigits e.natAbs
    s.digits.take 1 ++ (if fraction.isEmpty then [] else '.' :: fraction)
      ++ 'e' :: (if e < 0 then '-' else '+')
      :: (List.replicate (2 - exponent.length) '0' ++ exponent)

/-- A double as the shortest decimal that reads back. -/
def Binary64.text (x : Binary64) : String :=
  if x.isNaN then "nan"
  else
    let sign := if x.negative then "-" else ""
    if x.isInfinite then sign ++ "inf"
    else if x.isZero then sign ++ "0.0"
    else sign ++ ((Shortest.ofMagnitude x.magnitude).map (String.ofList ·.written)).getD ""

end SmlSchema.Scalar
