import SmlSchema.CommandLine.Run

/-! # The program -/

namespace SmlSchema.CommandLine

/-- An action on the files of the machine, with its fault if it fails. -/
def tryFile (name : String) (action : IO α) : IO (Except File.Error α) := do
  try
    return .ok (← action)
  catch e =>
    let fault : File.Fault := match e with
      | .noFileOrDirectory _ _ _ => .notFound
      | .alreadyExists _ _ _ => .alreadyThere
      | .inappropriateType _ code text =>
        if code = 20 then .notDirectory
        else if code = 21 then .isDirectory
        else .other code.toNat text
      | e => .other 5 (toString e)
    return .error ⟨fault, name⟩

/-- The file system of the machine. -/
instance : File.Store IO where
  read name := tryFile name do return (← IO.FS.readBinFile name).toList
  makeDirectories name := tryFile name (IO.FS.createDirAll name)
  write name content := tryFile name (IO.FS.writeBinFile name ⟨content.toArray⟩)

/-- The channels of the process. -/
instance : Console IO where
  print channel text := do
    try
      match channel with
      | .out => IO.print text
      | .err => IO.eprint text
      return .ok ()
    catch e => return .error (.system 5 (toString e))

def readEnvironment : IO Environment := do
  return {
    input := ← IO.getEnv "SMLSCHEMA_INPUT_FILE"
    output := ← IO.getEnv "SMLSCHEMA_OUTPUT_DIR"
    outputName := ← IO.getEnv "SMLSCHEMA_OUTPUT_NAME"
    runtime := ← IO.getEnv "SMLSCHEMA_RUNTIME_MODULE"
    verbose := ← IO.getEnv "SMLSCHEMA_VERBOSE" }

def usage : String := "usage: sml-schema-compiler [-h] [--input INPUT] [--output OUTPUT]
                           [--output-name OUTPUT_NAME]
                           [--runtime-module RUNTIME_MODULE] [--check]
                           [--format] [--verbose]
"

def help : String := usage ++ "
Compile an SML schema into a Python data-binding module

options:
  -h, --help            show this help message and exit
  --input INPUT, -i INPUT
                        Path to the SML schema file
  --output OUTPUT, -o OUTPUT
                        Directory where the generated module is written
  --output-name OUTPUT_NAME, -n OUTPUT_NAME
                        Module name without extension (default: input filename)
  --runtime-module RUNTIME_MODULE
                        Import name of the SML document runtime (default: sml_document)
  --check               Only validate the schema, do not generate code
  --format              Print the schema in canonical form
  --verbose, -v         Enable verbose output for debugging
"

end SmlSchema.CommandLine

open SmlSchema.CommandLine in
def main (words : List String) : IO UInt32 := do
  match read words with
  | .error .help =>
    IO.print help
    return 0
  | .error (.refused r) =>
    IO.eprint (usage ++ "sml-schema-compiler: error: " ++ r.message ++ "\n")
    return 2
  | .ok arguments =>
    match ← run (.make arguments (← readEnvironment)) with
    | .status code => return code.toUInt32
    | .crash e =>
      IO.eprintln e.message
      return 1
