import SmlSchema.Scalar.Calendar
import SmlSchema.Scalar.Digits
import SmlSchema.Text.Quoted

/-! # Reading dates and times

Where a text has to be at its end, a NUL may stand as well; what follows the NUL is not looked at.
-/

namespace SmlSchema.Scalar.Calendar

inductive Flaw where
  | malformed (text : String)
  | year (year : Nat)
  | month
  | day
  | hour
  | minute
  | second
  | offset (microseconds : Int)
deriving DecidableEq, Repr

/-- A span of time as days, seconds of a day and microseconds of a second; zero parts are left
out. -/
def spanText (microseconds : Int) : String :=
  let perDay : Int := 86400000000
  let days := microseconds.fdiv perDay
  let rest := microseconds.fmod perDay
  let parts := [("days", days), ("seconds", rest / 1000000), ("microseconds", rest % 1000000)]
  let shown := (parts.filter (·.2 != 0)).map fun p => p.1 ++ "=" ++ toString p.2
  "datetime.timedelta(" ++ (if shown.isEmpty then "0" else ", ".intercalate shown) ++ ")"

def Flaw.message : Flaw → String
  | .malformed text => "Invalid isoformat string: " ++ Text.quoted text
  | .year y => s!"year {y} is out of range"
  | .month => "month must be in 1..12"
  | .day => "day is out of range for month"
  | .hour => "hour must be in 0..23"
  | .minute => "minute must be in 0..59"
  | .second => "second must be in 0..59"
  | .offset us =>
    "offset must be a timedelta strictly between -timedelta(hours=24) and timedelta(hours=24), not "
      ++ spanText us ++ "."

/-- The characters counted by the bytes of their encoding: one of several bytes stands there that
many times. -/
def octets (cs : List Char) : List Char := cs.flatMap fun c => List.replicate c.utf8Size c

/-- Nothing is left at the position: the text ends there, or a NUL stands there. -/
def endsAt (s : List Char) (position : Nat) : Bool := (s[position]?).all (· = '\x00')

/-- `count` digits from the position on. -/
def digitsAt (s : List Char) (position count : Nat) : Option Nat :=
  let ds := (s.drop position).take count
  if ds.length = count && ds.all isDecimal then some (natOfDigits ds) else none

/-- The position behind a hyphen, which has to stand there if one stood before. -/
def pastHyphen (s : List Char) (hyphens : Bool) (position : Nat) : Option Nat :=
  if !hyphens then some position
  else if s[position]? = some '-' then some (position + 1)
  else none

/-- A year with a month and day, or with a week and maybe a day; what follows is not looked at, and
a day of a week only before `stop`. -/
def readDate (s : List Char) (stop : Nat) : Option Date := do
  let year ← digitsAt s 0 4
  let hyphens := s[4]? = some '-'
  let p := if hyphens then 5 else 4
  if s[p]? = some 'W' then
    let week ← digitsAt s (p + 1) 2
    let day ←
      if p + 3 < stop then do
        let q ← pastHyphen s hyphens (p + 3)
        digitsAt s q 1
      else some 1
    guard (1 ≤ week && (week ≤ 52 || (week = 53 && hasLongWeekYear year)) && 1 ≤ day && day ≤ 7)
    return ofWeek year week day
  else
    let month ← digitsAt s p 2
    let q ← pastHyphen s hyphens (p + 2)
    let day ← digitsAt s q 2
    return ⟨year, month, day⟩

def checkDate (d : Date) : Except Flaw Date :=
  if d.year < 1 || 9999 < d.year then .error (.year d.year)
  else if d.month < 1 || 12 < d.month then .error .month
  else if d.day < 1 || daysInMonth d.year d.month < d.day then .error .day
  else .ok d

/-- Hours, minutes and seconds in order, and the parts of a second. -/
structure Clock where
  fields : List Nat
  microsecond : Nat := 0

def Clock.field (c : Clock) (i : Nat) : Nat := c.fields.getD i 0

/-- Up to six digits of a fraction count; more are passed over. -/
def readFraction (s : List Char) (position stop : Nat) (fields : List Nat) :
    Option (Clock × Bool) := do
  let count := min 6 (stop - position)
  let value ← digitsAt s position count
  let rest := (s.drop (position + count)).dropWhile isDecimal
  return (⟨fields, value * Nat.pow 10 (6 - count)⟩, !endsAt rest 0)

/-- The two-digit fields from the position on, at most `more` further ones, with colons between all
of them or none; the result tells whether a character is left over at the end. -/
def readClock (s : List Char) (stop : Nat) (colons : Bool) (fields : List Nat) (position : Nat) :
    Nat → Option (Clock × Bool)
  | 0 => readFraction s position stop fields
  | more + 1 => do
    let value ← digitsAt s position 2
    let mark := s[position + 2]?
    let colons := if fields.isEmpty then mark = some ':' else colons
    let fields := fields ++ [value]
    if stop ≤ position + 3 then return (⟨fields, 0⟩, !endsAt s (position + 2))
    else if colons && mark = some ':' then readClock s stop colons fields (position + 3) more
    else if mark = some '.' || mark = some ',' then readFraction s (position + 3) stop fields
    else if !colons then readClock s stop colons fields (position + 2) more
    else none

/-- A clock time and the offset behind it. -/
structure Reading where
  clock : Clock
  offset : Option (Int × Int) := none

/-- A time, and the offset as seconds and microseconds: `Z`, or a sign and a clock time. -/
def readTime (s : List Char) : Option Reading := do
  let split := (s.takeWhile fun c => c != '+' && c != '-' && c != 'Z').length
  let (clock, extra) ← readClock s split false [] 0 3
  match s[split]? with
  | none => if extra then none else return { clock }
  | some 'Z' => if endsAt s (split + 1) then return { clock, offset := some (0, 0) } else none
  | some sign =>
    let (zone, extra) ← readClock s s.length false [] (split + 1) 3
    if extra then none
    let unit : Int := if sign = '-' then -1 else 1
    let seconds : Int := (zone.field 0 * 3600 + zone.field 1 * 60 + zone.field 2 : Nat)
    return { clock, offset := some (unit * seconds, unit * zone.microsecond) }

/-- No whole second makes it universal time; a day or more is refused. -/
def makeOffset : Option (Int × Int) → Except Flaw (Option Int)
  | none => .ok none
  | some (seconds, micro) =>
    if seconds = 0 then .ok (some 0)
    else
      let total := seconds * 1000000 + micro
      if 86400000000 ≤ total.natAbs then .error (.offset total) else .ok (some total)

def checkTime (c : Clock) (offset : Option Int) : Except Flaw Time :=
  if 23 < c.field 0 then .error .hour
  else if 59 < c.field 1 then .error .minute
  else if 59 < c.field 2 then .error .second
  else .ok ⟨c.field 0, c.field 1, c.field 2, c.microsecond, offset⟩

/-- A date is written with seven, eight or ten bytes. -/
def date (text : String) : Except Flaw Date :=
  let s := octets text.toList
  match (if [7, 8, 10].contains s.length then readDate s s.length else none) with
  | none => .error (.malformed text)
  | some d => checkDate d

def time (text : String) : Except Flaw Time :=
  let s := octets text.toList
  let s := if s.head? = some 'T' then s.tail else s
  match readTime s with
  | none => .error (.malformed text)
  | some r => do checkTime r.clock (← makeOffset r.offset)

/-- Where the date ends in a text of a date and a time. -/
def separator? (s : List Char) : Option Nat :=
  if s.length = 7 then some 7
  else if s[4]? = some '-' then
    if s[5]? = some 'W' then
      if s[8]? = some '-' then
        if s.length = 9 then none
        else some (if s[10]?.any isDecimal then 8 else 10)
      else some 8
    else some 10
  else if s[4]? = some 'W' then
    let p := 7 + ((s.drop 7).takeWhile isDecimal).length
    some (if p < 9 then p else if p % 2 = 0 then 7 else 8)
  else some 8

/-- The part behind the date and the one character between. -/
def afterSeparator (s : List Char) (position : Nat) : Option (List Char) :=
  (s[position]?).map fun c => s.drop (position + c.utf8Size)

def readDateTime (s : List Char) : Option (Date × Reading) := do
  guard (7 ≤ s.length)
  let p ← separator? s
  let d ← readDate s p
  match afterSeparator s p with
  | none => return (d, { clock := ⟨[], 0⟩ })
  | some rest => return (d, ← readTime rest)

def dateTime (text : String) : Except Flaw DateTime :=
  match readDateTime (octets text.toList) with
  | none => .error (.malformed text)
  | some (d, r) => do
    let offset ← makeOffset r.offset
    let d ← checkDate d
    return ⟨d, ← checkTime r.clock offset⟩

end SmlSchema.Scalar.Calendar
