import SmlSchema.Text.Case.Table

/-! # Letter case -/

namespace SmlSchema.Text

namespace Case

def Run.image? (r : Run) (n : Nat) : Option Nat :=
  if r.first ≤ n && n ≤ r.last && (n - r.first) % r.step == 0 then
    some ((n : Int) + r.offset).toNat
  else
    none

/-- A mapping to several characters wins over one to a single character. The runs stand in the order
of their first characters, so those that start after the character are not looked at. -/
def mapping (expansions : List (Nat × List Nat)) (runs : List Run) (c : Char) : List Char :=
  match expansions.lookup c.toNat with
  | some codes => codes.map Char.ofNat
  | none =>
    match (runs.takeWhile (·.first ≤ c.toNat)).findSome? (·.image? c.toNat) with
    | some n => [Char.ofNat n]
    | none => [c]

def isCased (c : Char) : Bool := casedRanges.has c

def isIgnorable (c : Char) : Bool := ignorableRanges.has c

/-- The first character that counts for letter case is a cased one. -/
def meetsCased (cs : List Char) : Bool :=
  ((cs.dropWhile isIgnorable).head?).any isCased

/-- A word ends between the two parts: `before` is read backwards. -/
def wordEnds (before after : List Char) : Bool :=
  meetsCased before && !meetsCased after

end Case

def upperChar (c : Char) : List Char :=
  Case.mapping Case.upperExpansions Case.upperRuns c

/-- The lower case of a character on its own. -/
def lowerChar (c : Char) : List Char :=
  Case.mapping Case.lowerExpansions Case.lowerRuns c

def upperChars (cs : List Char) : List Char := cs.flatMap upperChar

/-- Lower case after the characters `before` (read backwards): a capital sigma becomes a final one
where a word ends. -/
def lowerAfter (before : List Char) : List Char → List Char
  | [] => []
  | c :: cs =>
    (if c == 'Σ' && Case.wordEnds before cs then ['ς'] else lowerChar c)
      ++ lowerAfter (c :: before) cs

def lowerChars (cs : List Char) : List Char := lowerAfter [] cs

def upper (s : String) : String := String.ofList (upperChars s.toList)

def lower (s : String) : String := String.ofList (lowerChars s.toList)

/-- The two names are equal up to letter case. -/
def sameName (a b : String) : Bool := lower a == lower b

/-- Set the case of the first character and keep the rest. -/
def leadingCaseChars (toUpper : Bool) : List Char → List Char
  | [] => []
  | c :: cs => (if toUpper then upperChar c else lowerChar c) ++ cs

end SmlSchema.Text
