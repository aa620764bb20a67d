import SmlSchema.Text.Printable

/-! # Quoted texts in messages -/

namespace SmlSchema.Text

/-- The hexadecimal digits of `n`, in lower case, filled up to `width` digits. -/
def hexDigits (width n : Nat) : List Char :=
  let digits := Nat.toDigits 16 n
  List.replicate (width - digits.length) '0' ++ digits

/-- A code point as the shortest of the three numeric escapes. -/
def numericEscape (n : Nat) : List Char :=
  if n < 0x100 then '\\' :: 'x' :: hexDigits 2 n
  else if n < 0x10000 then '\\' :: 'u' :: hexDigits 4 n
  else '\\' :: 'U' :: hexDigits 8 n

/-- Single quotes, unless the text has single quotes and no double quotes. -/
def quoteMark (cs : List Char) : Char :=
  if cs.contains '\'' && !cs.contains '"' then '"' else '\''

def quotedChar (mark c : Char) : List Char :=
  if c = mark ∨ c = '\\' then ['\\', c]
  else if c = '\n' then ['\\', 'n']
  else if c = '\r' then ['\\', 'r']
  else if c = '\t' then ['\\', 't']
  else if isPrintable c then [c]
  else numericEscape c.toNat

def quotedChars (cs : List Char) : List Char :=
  let mark := quoteMark cs
  mark :: cs.flatMap (quotedChar mark) ++ [mark]

/-- The text in quotes, with everything that does not print written as an escape. -/
def quoted (s : String) : String := String.ofList (quotedChars s.toList)

/-- A list of texts already written out. -/
def bracketed (items : List String) : String := "[" ++ ", ".intercalate items ++ "]"

end SmlSchema.Text
