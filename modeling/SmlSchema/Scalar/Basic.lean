import SmlSchema.Predefined
import SmlSchema.Scalar.Base64
import SmlSchema.Scalar.CalendarReader
import SmlSchema.Scalar.Decimal

/-! # Values of the predefined types -/

namespace SmlSchema

inductive Scalar where
  | bool (value : Bool)
  | int (value : Int)
  | number (value : Scalar.Binary64)
  | string (value : String)
  | date (value : Scalar.Date)
  | time (value : Scalar.Time)
  | dateTime (value : Scalar.DateTime)
  | bytes (value : List UInt8)
deriving DecidableEq, Repr

namespace Scalar

/-- Why a text is no value of a predefined type. -/
inductive Flaw where
  | notBool
  | notInteger
  | notUnsigned
  | notNumber
  | tooManyDigits (digits : TooManyDigits)
  | base64 (flaw : Base64.Flaw)
  | calendar (flaw : Calendar.Flaw)
deriving DecidableEq, Repr

def Flaw.message : Flaw → String
  | .notBool => "expected true or false"
  | .notInteger => "expected an integer"
  | .notUnsigned => "expected an unsigned integer"
  | .notNumber => "expected a number"
  | .tooManyDigits digits => digits.message
  | .base64 flaw => flaw.message
  | .calendar flaw => flaw.message

def readBool (text : String) : Except Flaw Bool :=
  let lowered := Text.lower text
  if lowered = "true" then .ok true
  else if lowered = "false" then .ok false
  else .error .notBool

/-- Digits with at most one sign in front. -/
def readInt (text : String) : Except Flaw Int :=
  let (negative, ds) := splitSign text.toList
  if isDigitRun ds then
    match natOfText ds with
    | .ok n => .ok (if negative then -(n : Int) else n)
    | .error e => .error (.tooManyDigits e)
  else .error .notInteger

/-- Digits with at most a plus sign in front. -/
def readUInt (text : String) : Except Flaw Nat :=
  let ds := match text.toList with
    | '+' :: ds => ds
    | ds => ds
  if isDigitRun ds then (natOfText ds).mapError .tooManyDigits else .error .notUnsigned

def readNumber (text : String) : Except Flaw Binary64 :=
  match Decimal.read? text.toList with
  | some d => .ok d.toBinary64
  | none => .error .notNumber

end Scalar

/-- The value of the type that the text writes. -/
def Predefined.read (p : Predefined) (text : String) : Except Scalar.Flaw Scalar :=
  match p with
  | .bool => (Scalar.readBool text).map .bool
  | .int => (Scalar.readInt text).map .int
  | .uint => (Scalar.readUInt text).map fun n => .int n
  | .number => (Scalar.readNumber text).map .number
  | .string => .ok (.string text)
  | .date => ((Scalar.Calendar.date text).mapError .calendar).map .date
  | .time => ((Scalar.Calendar.time text).mapError .calendar).map .time
  | .dateTime => ((Scalar.Calendar.dateTime text).mapError .calendar).map .dateTime
  | .base64 => ((Scalar.Base64.decode text).mapError .base64).map .bytes

end SmlSchema
