import SmlSchema.CommandLine.Reader
import SmlSchema.Compilation
import SmlSchema.Schema.Printer
import SmlSchema.Text.Character
import SmlSchema.Text.Case

/-! # Running the compiler from the command line

Values of the environment win over arguments. A run works on every store of files with a console.
-/

namespace SmlSchema.CommandLine

/-- Values that take precedence over the arguments. -/
structure Environment where
  input : Option String := none
  output : Option String := none
  outputName : Option String := none
  runtime : Option String := none
  verbose : Option String := none
deriving DecidableEq, Repr

/-- The words that turn a switch on. -/
def isOn (value : String) : Bool :=
  ["1", "true", "yes", "on"].contains (Text.lower (Text.trim value))

/-- What is to be done, after the environment has been taken into account. -/
structure Settings where
  input : Option String
  output : Option String
  outputName : Option String
  runtime : String
  check : Bool
  format : Bool
  verbose : Bool
deriving DecidableEq, Repr

/-- A value of the environment wins even if it is empty; an empty file name counts as none. -/
def Settings.make (a : Arguments) (e : Environment) : Settings where
  input := (e.input.map Value.text <|> a.input).bind (·.text?)
  output := (e.output.map Value.text <|> a.output).bind (·.text?)
  outputName := e.outputName <|> a.outputName.map (·.shown)
  runtime := e.runtime.getD a.runtime.shown
  check := a.check
  format := a.format
  verbose := (e.verbose.map isOn).getD a.verbose

/-- An exit status, or an error that is not a matter of the schema or of files. -/
inductive Ending where
  | status (code : Nat)
  | crash (e : CompileError)
deriving Repr

/-- Errors of the schema and of the system are told and give the status 1. -/
def isTold : CompileError → Bool
  | .file _ => true
  | .print (.system _ _) => true
  | .load (.rejected _) => true
  | .schema _ => true
  | .generate (.failed _) => true
  | _ => false

variable {m : Type → Type} [Monad m] [File.Store m] [Console m]

/-- End with the status 1 after a message, or break off if not even that can be printed. -/
def failure (message : String) : m Ending := do
  match ← Console.print .err ("Error: " ++ message ++ "\n") with
  | .ok () => return .status 1
  | .error f => return .crash (.print f)

def conclude : Except CompileError Unit → m Ending
  | .ok () => return .status 0
  | .error e => if isTold e then failure e.message else return .crash e

open Compilation

/-- The line that tells of a written module. -/
def generatedText (path : String) : String := "Generated Python module: " ++ path ++ "\n"

/-- Load the schema, print it if wanted, then generate the module unless only a check is wanted. -/
def compile (c : Compilation) (check format verbose : Bool) : Compiling m Unit := do
  let schema ← c.load verbose
  if format then
    let text ← (schema.render.mapError CompileError.schema : Except CompileError String)
    print .out (text ++ "\n")
  if check then
    print .out ("Schema is valid: " ++ c.input ++ "\n")
  else
    let path ← c.generate verbose (some schema)
    print .out (generatedText path)

def run (s : Settings) : m Ending :=
  match s.input with
  | none => failure "no input file given (use --input or SMLSCHEMA_INPUT_FILE)"
  | some input =>
    if !s.check && s.output.isNone then
      failure "no output directory given (use --output or SMLSCHEMA_OUTPUT_DIR)"
    else do
      let c : Compilation := {
        input
        directory := s.output
        moduleName := s.outputName.getD (File.stem input)
        runtime := s.runtime }
      conclude (← (compile c s.check s.format s.verbose).run)

end SmlSchema.CommandLine
