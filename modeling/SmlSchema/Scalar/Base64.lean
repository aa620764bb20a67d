/-! # Base64 -/

namespace SmlSchema.Scalar.Base64

inductive Flaw where
  | notAscii
  | leadingPadding
  | excessData
  | foreignCharacter
  | brokenPadding
  | loneCharacter (count : Nat)
  | incorrectPadding
deriving DecidableEq, Repr

def Flaw.message : Flaw → String
  | .notAscii => "string argument should contain only ASCII characters"
  | .leadingPadding => "Leading padding not allowed"
  | .excessData => "Excess data after padding"
  | .foreignCharacter => "Only base64 data is allowed"
  | .brokenPadding => "Discontinuous padding not allowed"
  | .loneCharacter n =>
    s!"Invalid base64-encoded string: number of data characters ({n}) "
      ++ "cannot be 1 more than a multiple of 4"
  | .incorrectPadding => "Incorrect padding"

/-- The six bits of a data character. -/
def sextet? (c : Char) : Option Nat :=
  if 'A' ≤ c && c ≤ 'Z' then some (c.toNat - 'A'.toNat)
  else if 'a' ≤ c && c ≤ 'z' then some (c.toNat - 'a'.toNat + 26)
  else if '0' ≤ c && c ≤ '9' then some (c.toNat - '0'.toNat + 52)
  else if c = '+' then some 62
  else if c = '/' then some 63
  else none

/-- The whole bytes in the bits of the data; bits left over are dropped. -/
def bytes : List Nat → List UInt8
  | a :: b :: c :: d :: rest =>
    let n := ((a * 64 + b) * 64 + c) * 64 + d
    (n / 65536).toUInt8 :: (n / 256 % 256).toUInt8 :: (n % 256).toUInt8 :: bytes rest
  | [a, b, c] =>
    let n := (a * 64 + b) * 64 + c
    [(n / 1024).toUInt8, (n / 4 % 256).toUInt8]
  | [a, b] => [((a * 64 + b) / 16).toUInt8]
  | _ => []

/-- The data so far in reverse, and how many padding characters have filled up its last group. -/
structure State where
  data : List Nat := []
  pads : Nat := 0
  padded : Bool := false

def scan (s : State) : List Char → Except Flaw (List Nat)
  | [] =>
    let n := s.data.length
    if n % 4 = 1 then .error (.loneCharacter n)
    else if n % 4 ≠ 0 then .error .incorrectPadding
    else .ok s.data.reverse
  | c :: cs =>
    if c = '=' then
      let filled := s.data.length % 4
      if filled < 2 then scan { s with padded := true } cs
      else if filled + s.pads + 1 < 4 then scan { s with pads := s.pads + 1, padded := true } cs
      else if cs.isEmpty then .ok s.data.reverse
      else .error .excessData
    else
      match sextet? c with
      | none => .error .foreignCharacter
      | some v =>
        if s.padded then .error .brokenPadding
        else scan { data := v :: s.data, pads := 0, padded := s.padded } cs

def decode (text : String) : Except Flaw (List UInt8) :=
  let cs := text.toList
  if cs.any (127 < ·.toNat) then .error .notAscii
  else if cs.head? = some '=' then .error .leadingPadding
  else (scan {} cs).map bytes

end SmlSchema.Scalar.Base64
