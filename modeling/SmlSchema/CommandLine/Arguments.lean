import SmlSchema.Text.Quoted

/-! # Options of the command line

An option takes a value or is a switch. Most have a long and a short spelling.
-/

namespace SmlSchema.CommandLine

/-- An option that takes a value. -/
inductive Setting where
  | input
  | output
  | outputName
  | runtime
deriving DecidableEq, Repr

/-- An option that takes none. -/
inductive Switch where
  | help
  | check
  | format
  | verbose
deriving DecidableEq, Repr

inductive Item where
  | setting (s : Setting)
  | switch (s : Switch)
deriving DecidableEq, Repr

/-- The spellings of all options. -/
def spellings : List (String × Item) :=
  [("-h", .switch .help), ("--help", .switch .help),
   ("--input", .setting .input), ("-i", .setting .input),
   ("--output", .setting .output), ("-o", .setting .output),
   ("--output-name", .setting .outputName), ("-n", .setting .outputName),
   ("--runtime-module", .setting .runtime),
   ("--check", .switch .check),
   ("--format", .switch .format),
   ("--verbose", .switch .verbose), ("-v", .switch .verbose)]

def item? (spelling : String) : Option Item := spellings.lookup spelling

/-- All spellings of an option. -/
def Item.title (i : Item) : String :=
  "/".intercalate ((spellings.filter (·.2 = i)).map (·.1))

/-- Two dashes in place of a value leave no value at all. -/
inductive Value where
  | text (s : String)
  | nothing
deriving DecidableEq, Repr

namespace Value

def ofText (s : String) : Value := if s = "--" then .nothing else .text s

def shown : Value → String
  | .text s => s
  | .nothing => "[]"

/-- The text, unless there is none. -/
def text? : Value → Option String
  | .text s => if s.isEmpty then none else some s
  | .nothing => none

end Value

/-- What the command line asks for. -/
structure Arguments where
  input : Option Value := none
  output : Option Value := none
  outputName : Option Value := none
  runtime : Value := .text "sml_document"
  check : Bool := false
  format : Bool := false
  verbose : Bool := false
deriving DecidableEq, Repr

/-- Why a command line is refused. -/
inductive Refusal where
  | ambiguous (word : String) (candidates : List String)
  | missingValue (s : Setting)
  | unexpectedValue (i : Item) (value : String)
  | unrecognized (words : List String)
deriving DecidableEq, Repr

def Refusal.message : Refusal → String
  | .ambiguous word candidates =>
    "ambiguous option: " ++ word ++ " could match " ++ ", ".intercalate candidates
  | .missingValue s => "argument " ++ (Item.setting s).title ++ ": expected one argument"
  | .unexpectedValue i value =>
    "argument " ++ i.title ++ ": ignored explicit argument " ++ Text.quoted value
  | .unrecognized words => "unrecognized arguments: " ++ " ".intercalate words

/-- A reading of the command line that ends early. -/
inductive Stop where
  | help
  | refused (r : Refusal)
deriving DecidableEq, Repr

end SmlSchema.CommandLine
