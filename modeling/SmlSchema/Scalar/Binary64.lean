/-! # Double precision numbers -/

namespace SmlSchema.Scalar

/-- A number in the 64 bit binary interchange format. -/
structure Binary64 where
  bits : UInt64
deriving DecidableEq, Repr

/-- The quotient rounded to the nearest integer, a tie to the even one. -/
def roundQuotient (num den : Nat) : Nat :=
  let q := num / den
  let r := num % den
  if 2 * r < den then q
  else if den < 2 * r then q + 1
  else if q % 2 = 0 then q else q + 1

namespace Binary64

def signWeight : Nat := Nat.pow 2 63

def infinityMagnitude : Nat := 0x7FF * Nat.pow 2 52

def ofMagnitude (negative : Bool) (magnitude : Nat) : Binary64 :=
  ⟨(magnitude + if negative then signWeight else 0).toUInt64⟩

def negative (x : Binary64) : Bool := signWeight ≤ x.bits.toNat

/-- All bits but the sign. -/
def magnitude (x : Binary64) : Nat := x.bits.toNat % signWeight

def infinity (negative : Bool) : Binary64 := ofMagnitude negative infinityMagnitude

def nan : Binary64 := ofMagnitude false (infinityMagnitude + Nat.pow 2 51)

def isZero (x : Binary64) : Bool := x.magnitude = 0

def isInfinite (x : Binary64) : Bool := x.magnitude = infinityMagnitude

def isNaN (x : Binary64) : Bool := infinityMagnitude < x.magnitude

/-- A finite magnitude is `significand * 2 ^ scale`. -/
def significand (magnitude : Nat) : Nat :=
  if magnitude < Nat.pow 2 52 then magnitude else magnitude % Nat.pow 2 52 + Nat.pow 2 52

@[inherit_doc significand]
def scale (magnitude : Nat) : Int :=
  if magnitude < Nat.pow 2 52 then -1074 else (magnitude / Nat.pow 2 52 : Nat) - 1075

/-- The greatest power of two that is not above `num / den`, as an exponent. -/
def floorLog2 (num den : Nat) : Int :=
  let guess : Int := (num.log2 : Int) - den.log2
  if den * Nat.pow 2 guess.toNat ≤ num * Nat.pow 2 (-guess).toNat then guess else guess - 1

/-- The magnitude nearest to `num / den`, a tie to the even one; beyond the range it is infinite. -/
def nearestMagnitude (num den : Nat) : Nat :=
  if num = 0 then 0 else
    let e := max (-1074) (floorLog2 num den - 52)
    let m := roundQuotient (num * Nat.pow 2 (-e).toNat) (den * Nat.pow 2 e.toNat)
    min ((e + 1074).toNat * Nat.pow 2 52 + m) infinityMagnitude

end Binary64

end SmlSchema.Scalar
