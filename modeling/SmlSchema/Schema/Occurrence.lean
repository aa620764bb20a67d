/-! # How often something occurs -/

namespace SmlSchema

/-- The least and the greatest number of occurrences; without a greatest number there is no
limit. -/
structure Occurrence where
  min : Nat
  max : Option Nat
  min_le_max : ∀ m, max = some m → min ≤ m
deriving DecidableEq, Repr

/-- Why two bounds make no range, or a range has no word. -/
inductive RangeFlaw where
  | negative (min : Int) (max : Option Int)
  | reversed (min : Int) (max : Option Int)
  | badSize (size dataType : String)
  | noWord (occurrence : Occurrence)
deriving DecidableEq, Repr

namespace Occurrence

/-- Two bounds as they are written in messages. -/
def boundsText (min : Int) (max : Option Int) : String :=
  s!"{min}.." ++ (max.map toString).getD "None"

/-- The bounds as they are written in messages. -/
def bounds (o : Occurrence) : String := boundsText o.min (o.max.map Int.ofNat)

/-- The range between two bounds; a missing lower bound is zero. -/
def make (min max : Option Int) : Except RangeFlaw Occurrence :=
  let low := min.getD 0
  if low < 0 then .error (.negative low max)
  else match max with
    | none => .ok ⟨low.toNat, none, by simp⟩
    | some high =>
      if high < 0 then .error (.negative low max)
      else if h : high < low then .error (.reversed low max)
      else .ok ⟨low.toNat, some high.toNat, by
        intro m hm; simp only [Option.some.injEq] at hm; omega⟩

def required : Occurrence := ⟨1, some 1, by simp⟩

def optional : Occurrence := ⟨0, some 1, by simp⟩

/-- At least once. -/
def repeatedPlus : Occurrence := ⟨1, none, by simp⟩

/-- Any number of times. -/
def repeatedStar : Occurrence := ⟨0, none, by simp⟩

def fixed (size : Nat) : Occurrence := ⟨size, some size, by simp⟩

def isRequired (o : Occurrence) : Bool := o == required

def isOptional (o : Occurrence) : Bool := o == optional

def isRepeatedPlus (o : Occurrence) : Bool := o == repeatedPlus

def isRepeatedStar (o : Occurrence) : Bool := o == repeatedStar

def isRepeated (o : Occurrence) : Bool := o.isRepeatedPlus || o.isRepeatedStar

def isFixed (o : Occurrence) : Bool := o.max == some o.min

/-- The ranges that have a word of their own. -/
def words : List (String × Occurrence) :=
  [("Required", required), ("Optional", optional), ("Repeated+", repeatedPlus),
   ("Repeated*", repeatedStar)]

/-- The word for a range. -/
def word (o : Occurrence) : Except RangeFlaw String :=
  match words.find? (·.2 == o) with
  | some w => .ok w.1
  | none => .error (.noWord o)

def describe (o : Occurrence) : String :=
  s!"OccurrenceRange(min={o.min}, max=" ++ (o.max.map toString).getD "None" ++ ")"

end Occurrence

def RangeFlaw.message : RangeFlaw → String
  | .negative min max =>
    "Invalid bounds " ++ Occurrence.boundsText min max ++ ": bounds must not be negative"
  | .reversed min max =>
    "Invalid bounds " ++ Occurrence.boundsText min max ++ ": max is smaller than min"
  | .badSize size dataType => s!"Invalid array size \"{size}\" in data type \"{dataType}\""
  | .noWord o => "Occurrence " ++ o.bounds ++ " has no textual form"

end SmlSchema
