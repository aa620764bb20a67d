import SmlSchema.Text.Quoted

/-! # Text as bytes

A character takes one to four bytes. The first byte tells how many follow and, for some, narrows the
range of the second, so that every character has one form only.
-/

namespace SmlSchema.Text.Utf8

inductive Reason where
  | badStart
  | badContinuation
  | cutOff
deriving DecidableEq, Repr

def Reason.message : Reason → String
  | .badStart => "invalid start byte"
  | .badContinuation => "invalid continuation byte"
  | .cutOff => "unexpected end of data"

/-- The bytes that form no character: the first of them, its position, and how many they are. -/
structure Flaw where
  reason : Reason
  first : UInt8
  start : Nat
  size : Nat
deriving DecidableEq, Repr

def Flaw.message (f : Flaw) : String :=
  let place :=
    if f.size = 1 then
      "byte 0x" ++ String.ofList (hexDigits 2 f.first.toNat) ++ " in position " ++ toString f.start
    else "bytes in position " ++ toString f.start ++ "-" ++ toString (f.start + f.size - 1)
  "'utf-8' codec can't decode " ++ place ++ ": " ++ f.reason.message

/-- A character of which some bytes are still to come; the next one lies from `low` to `high`. -/
structure Open where
  first : UInt8
  size : Nat
  value : Nat
  missing : Nat
  low : Nat := 0x80
  high : Nat := 0xBF
deriving DecidableEq, Repr

/-- The characters read so far in reverse, and the character that is not complete yet. -/
structure Progress where
  position : Nat := 0
  chars : List Char := []
  pending : Option Open := none
deriving DecidableEq, Repr

/-- What a first byte of several starts. -/
def lead? (b : UInt8) : Option Open :=
  let n := b.toNat
  if n < 0xC2 then none
  else if n < 0xE0 then some { first := b, size := 1, value := n - 0xC0, missing := 1 }
  else if n < 0xF0 then
    let o : Open := { first := b, size := 1, value := n - 0xE0, missing := 2 }
    some (if n = 0xE0 then { o with low := 0xA0 }
      else if n = 0xED then { o with high := 0x9F } else o)
  else if n < 0xF5 then
    let o : Open := { first := b, size := 1, value := n - 0xF0, missing := 3 }
    some (if n = 0xF0 then { o with low := 0x90 }
      else if n = 0xF4 then { o with high := 0x8F } else o)
  else none

/-- Read one byte more. -/
def Progress.feed (p : Progress) (b : UInt8) : Except Flaw Progress :=
  match p.pending with
  | none =>
    if b.toNat < 0x80 then
      .ok { position := p.position + 1, chars := Char.ofNat b.toNat :: p.chars }
    else match lead? b with
      | none => .error ⟨.badStart, b, p.position, 1⟩
      | some o => .ok { p with position := p.position + 1, pending := some o }
  | some o =>
    if o.low ≤ b.toNat && b.toNat ≤ o.high then
      let value := o.value * 64 + (b.toNat - 0x80)
      if o.missing ≤ 1 then
        .ok { position := p.position + 1, chars := Char.ofNat value :: p.chars }
      else
        let next : Open :=
          { first := o.first, size := o.size + 1, value, missing := o.missing - 1 }
        .ok { p with position := p.position + 1, pending := some next }
    else .error ⟨.badContinuation, o.first, p.position - o.size, o.size⟩

def Progress.finish (p : Progress) : Except Flaw String :=
  match p.pending with
  | none => .ok (String.ofList p.chars.reverse)
  | some o => .error ⟨.cutOff, o.first, p.position - o.size, o.size⟩

def decode (bytes : List UInt8) : Except Flaw String := do
  (← bytes.foldlM Progress.feed {}).finish

def encode (s : String) : List UInt8 := s.toUTF8.toList

end SmlSchema.Text.Utf8
