import SmlSchema.Text.Case

/-! # Predefined types -/

namespace SmlSchema

inductive Predefined where
  | bool
  | int
  | uint
  | number
  | string
  | date
  | time
  | base64
  | dateTime
deriving DecidableEq, Repr

namespace Predefined

def all : List Predefined :=
  [.bool, .int, .uint, .number, .string, .date, .time, .base64, .dateTime]

def name : Predefined → String
  | .bool => "Bool"
  | .int => "Int"
  | .uint => "UInt"
  | .number => "Number"
  | .string => "String"
  | .date => "Date"
  | .time => "Time"
  | .base64 => "Base64"
  | .dateTime => "DateTime"

/-- The type of that name in any letter case. -/
def ofName? (name : String) : Option Predefined :=
  all.find? fun p => Text.sameName p.name name

end Predefined

end SmlSchema
