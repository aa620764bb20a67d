/-! # Dates and times of day -/

namespace SmlSchema.Scalar

structure Date where
  year : Nat
  month : Nat
  day : Nat
deriving DecidableEq, Repr

/-- A time of day; `offset` is its distance from universal time in microseconds, if it is known. -/
structure Time where
  hour : Nat
  minute : Nat
  second : Nat
  microsecond : Nat
  offset : Option Int
deriving DecidableEq, Repr

structure DateTime where
  date : Date
  time : Time
deriving DecidableEq, Repr

namespace Calendar

def isLeap (year : Nat) : Bool :=
  year % 4 == 0 && (year % 100 != 0 || year % 400 == 0)

def monthLengths (year : Nat) : List Nat :=
  [31, if isLeap year then 29 else 28, 31, 30, 31, 30, 31, 31, 30, 31, 30, 31]

def daysInMonth (year month : Nat) : Nat := (monthLengths year).getD (month - 1) 0

def yearLength (year : Nat) : Nat := if isLeap year then 366 else 365

/-- The days from the first day of year 1 to the first day of the year. -/
def daysBefore (year : Nat) : Nat :=
  let y := year - 1
  365 * y + y / 4 - y / 100 + y / 400

/-- The weekday of the first of January, counted from Monday as 0. -/
def firstWeekday (year : Nat) : Nat := daysBefore year % 7

/-- The year has a week 53. -/
def hasLongWeekYear (year : Nat) : Bool :=
  firstWeekday year == 3 || (firstWeekday year == 2 && isLeap year)

/-- The month and day reached by going `days` days on through months of these lengths. -/
def walkMonths (month days : Nat) : List Nat → Nat × Nat
  | [] => (month, days + 1)
  | length :: more =>
    if days < length then (month, days + 1) else walkMonths (month + 1) (days - length) more

/-- The date `days` days after the first of January; it may lie in a neighbouring year. -/
def dateAt (year : Nat) (days : Int) : Date :=
  let (y, d) :=
    if days < 0 then (year - 1, days + yearLength (year - 1))
    else if days < yearLength year then (year, days)
    else (year + 1, days - yearLength year)
  let (month, day) := walkMonths 1 d.toNat (monthLengths y)
  ⟨y, month, day⟩

/-- The date of a day (1 to 7) in a numbered week: week 1 holds the first Thursday. -/
def ofWeek (year week day : Nat) : Date :=
  let first := firstWeekday year
  let monday : Int := if 3 < first then 7 - (first : Int) else -(first : Int)
  dateAt year (monday + (week - 1) * 7 + (day - 1))

end Calendar

/-! ## Texts -/

/-- A number with zeros in front up to the width. -/
def padded (width n : Nat) : String :=
  let ds := Nat.toDigits 10 n
  String.ofList (List.replicate (width - ds.length) '0' ++ ds)

/-- A part of a second; nothing for a whole second. -/
def fractionText (microsecond : Nat) : String :=
  if microsecond = 0 then "" else "." ++ padded 6 microsecond

def Date.text (d : Date) : String :=
  padded 4 d.year ++ "-" ++ padded 2 d.month ++ "-" ++ padded 2 d.day

/-- Hours and minutes, and seconds only if there are any. -/
def offsetText (offset : Int) : String :=
  let total := offset.natAbs
  let seconds := total / 1000000
  let micro := total % 1000000
  (if offset < 0 then "-" else "+") ++ padded 2 (seconds / 3600)
    ++ ":" ++ padded 2 (seconds / 60 % 60)
    ++ (if seconds % 60 = 0 && micro = 0 then ""
      else ":" ++ padded 2 (seconds % 60) ++ fractionText micro)

def Time.text (t : Time) : String :=
  padded 2 t.hour ++ ":" ++ padded 2 t.minute ++ ":" ++ padded 2 t.second
    ++ fractionText t.microsecond ++ (t.offset.map offsetText).getD ""

def DateTime.text (d : DateTime) : String := d.date.text ++ "T" ++ d.time.text

end SmlSchema.Scalar
