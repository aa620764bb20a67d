import SmlSchema.Code.Generation
import SmlSchema.Console
import SmlSchema.Schema.Loader
import SmlSchema.Text.Lines
import SmlSchema.Text.Utf8

/-! # Compiling a schema file into a module file

Loading reads one file. Generating writes one file, after the whole module has been made. What the
steps report is printed as they go on, and a console that refuses a text stops the compilation.
-/

namespace SmlSchema

/-- Why a compilation stops. -/
inductive CompileError where
  | file (e : File.Error)
  | undecodable (f : Text.Utf8.Flaw)
  | load (e : LoadError)
  | schema (e : Error)
  | generate (e : GenerateError)
  | print (f : PrintFault)
  | notLoaded
  | noDirectory
  | noPath
deriving Repr

def CompileError.message : CompileError → String
  | .file e => e.message
  | .undecodable f => f.message
  | .load e => e.message
  | .schema e => e.message
  | .generate e => e.message
  | .print f => f.message
  | .notLoaded => "No schema loaded. Call load() first."
  | .noDirectory => "No output directory given"
  | .noPath => "expected str, bytes or os.PathLike object, not NoneType"

/-- The schema file, and where and for which document library the module is written. -/
structure Compilation where
  input : String
  directory : Option String := none
  moduleName : String := File.stem input
  runtime : String := "sml_document"
deriving DecidableEq, Repr

namespace Compilation

def fileName (c : Compilation) : String := c.moduleName ++ ".py"

/-- The name of the module file. -/
def outputPath (c : Compilation) : Except CompileError String :=
  match c.directory with
  | none => .error .noPath
  | some d => .ok (File.join d c.fileName)

def entry (message : String) : LogEntry := ⟨.compiler, message⟩

/-- The schema in the bytes of a file. -/
def schemaOfBytes (bytes : File.Bytes) : Traced CompileError Schema :=
  match Text.Utf8.decode bytes with
  | .error f => .fail (.undecodable f)
  | .ok text =>
    let t := Schema.parse (Text.unifyLineEnds text)
    ⟨t.log, t.result.mapError .load⟩

variable {m : Type → Type} [Monad m] [File.Store m] [Console m]

/-- A compilation stops at the first error. -/
abbrev Compiling (m : Type → Type) := ExceptT CompileError m

def print (channel : Channel) (text : String) : Compiling m Unit :=
  ExceptT.mk do return (← Console.print channel text).mapError .print

/-- Print what was reported, if that is wanted. -/
def tell (verbose : Bool) (log : List LogEntry) : Compiling m Unit :=
  if verbose then log.forM fun e => print .err (e.text ++ "\n") else pure ()

/-- Print what a computation reports before its result counts. -/
def told (verbose : Bool) (t : Traced CompileError α) : Compiling m α := do
  tell verbose t.log
  t.result

def onFiles (action : m (Except File.Error α)) : Compiling m α :=
  ExceptT.mk do return (← action).mapError .file

def load (c : Compilation) (verbose : Bool) : Compiling m Schema := do
  tell verbose [entry ("loading schema " ++ c.input)]
  let bytes ← onFiles (File.Store.read c.input)
  told verbose (schemaOfBytes bytes)

/-- Write the text of a module into its file in the directory. -/
def save (c : Compilation) (directory code : String) : Compiling m String := do
  onFiles (File.Store.makeDirectories directory)
  let path ← c.outputPath
  onFiles (File.Store.write path (Text.Utf8.encode code))
  return path

/-- The text of the module for a schema. -/
def moduleCode (c : Compilation) (s : Schema) : Traced CompileError String :=
  let t := s.generate c.runtime
  ⟨t.log, t.result.mapError .generate⟩

def wroteText (path code : String) : String :=
  "wrote " ++ toString code.length ++ " characters to " ++ path

/-- Generate the module and write it; the result is the name of its file. Files are touched only
once there is a text to write. -/
def generate (c : Compilation) (verbose : Bool) (schema : Option Schema) : Compiling m String := do
  match schema, c.directory with
  | none, _ => throw .notLoaded
  | _, none => throw .noDirectory
  | some s, some directory =>
    if directory.isEmpty then throw .noDirectory
    else
      let code ← told verbose (c.moduleCode s)
      let path ← c.save directory code
      tell verbose [entry (wroteText path code)]
      return path

end Compilation

/-- A compilation step by step, with the schema that was loaded last. -/
structure Session where
  compilation : Compilation
  verbose : Bool := false
  schema : Option Schema := none

namespace Session

variable {m : Type → Type} [Monad m] [File.Store m] [Console m]

/-- A schema that does not load leaves the one before in place. -/
def load (s : Session) : m (Session × Except CompileError Schema) := do
  let loaded ← (s.compilation.load s.verbose).run
  return ({ s with schema := loaded.toOption <|> s.schema }, loaded)

def generate (s : Session) : m (Except CompileError String) :=
  (s.compilation.generate s.verbose s.schema).run

end Session

end SmlSchema
