import SmlSchema.File.Name
import SmlSchema.Text.Quoted

/-! # Trees of files and directories

A tree has entries at locations. A name is followed component by component from the root or from the
working directory; every component but the last has to lead to a directory.
-/

namespace SmlSchema.File

/-- Why an operation on a file fails. -/
inductive Fault where
  | notFound
  | alreadyThere
  | notDirectory
  | isDirectory
  | nameTooLong
  | other (code : Nat) (text : String)
deriving DecidableEq, Repr

def Fault.code : Fault → Nat
  | .notFound => 2
  | .alreadyThere => 17
  | .notDirectory => 20
  | .isDirectory => 21
  | .nameTooLong => 36
  | .other code _ => code

def Fault.text : Fault → String
  | .notFound => "No such file or directory"
  | .alreadyThere => "File exists"
  | .notDirectory => "Not a directory"
  | .isDirectory => "Is a directory"
  | .nameTooLong => "File name too long"
  | .other _ text => text

/-- A fault, and the name that the failing operation was given. -/
structure Error where
  fault : Fault
  name : String
deriving DecidableEq, Repr

def Error.message (e : Error) : String :=
  "[Errno " ++ toString e.fault.code ++ "] " ++ e.fault.text ++ ": " ++ Text.quoted e.name

abbrev Bytes := List UInt8

inductive Entry where
  | directory
  | file (content : Bytes)
deriving DecidableEq, Repr

/-- The names of the directories around an entry and its own, from the inside to the outside. -/
abbrev Location := List String

/-- The entries below the root, and the directory from which names are read. -/
structure Tree where
  entries : List (Location × Entry) := []
  here : Location := []
deriving DecidableEq, Repr

namespace Tree

def entryAt? (t : Tree) (l : Location) : Option Entry :=
  if l = [] then some .directory else t.entries.lookup l

def isDirectoryAt (t : Tree) (l : Location) : Bool := t.entryAt? l = some .directory

/-- Put an entry in place of the one at the location, or add it. -/
def put (t : Tree) (l : Location) (e : Entry) : Tree :=
  { t with entries :=
      if (t.entries.lookup l).isSome then t.entries.map fun x => if x.1 = l then (l, e) else x
      else t.entries ++ [(l, e)] }

/-- The greatest number of bytes in a component, and in a name. -/
def maxComponentSize : Nat := 255

@[inherit_doc maxComponentSize]
def maxNameSize : Nat := 4095

/-- A directory is needed to go on from. -/
def needDirectory (t : Tree) (l : Location) : Except Fault Unit :=
  match t.entryAt? l with
  | some .directory => .ok ()
  | some (.file _) => .error .notDirectory
  | none => .error .notFound

/-- Where a component leads, whether or not there is an entry. -/
def target (t : Tree) (l : Location) (component : String) : Except Fault Location := do
  t.needDirectory l
  if component = "." then return l
  else if component = ".." then return l.tail
  else if maxComponentSize < component.utf8ByteSize then .error .nameTooLong
  else return component :: l

def advance (t : Tree) (l : Location) (component : String) : Except Fault Location := do
  let next ← t.target l component
  if (t.entryAt? next).isSome then return next else .error .notFound

/-- Where the components of a name lead from; the empty name leads nowhere. -/
def start (t : Tree) (name : String) : Except Fault Location :=
  if name.isEmpty then .error .notFound
  else if maxNameSize < name.utf8ByteSize then .error .nameTooLong
  else .ok (if isAbsolute name then [] else t.here)

def locate (t : Tree) (name : String) : Except Fault Location := do
  (components name).foldlM t.advance (← t.start name)

def entryNamed (t : Tree) (name : String) : Except Fault (Option Entry) := do
  return t.entryAt? (← t.locate name)

def has (t : Tree) (name : String) : Bool := (t.locate name).toOption.isSome

def hasDirectory (t : Tree) (name : String) : Bool :=
  match t.locate name with
  | .ok l => t.isDirectoryAt l
  | .error _ => false

def named (name : String) (r : Except Fault α) : Except Error α := r.mapError (⟨·, name⟩)

def read (t : Tree) (name : String) : Except Error Bytes :=
  named name do
    match ← t.entryNamed name with
    | some (.file content) => return content
    | some .directory => .error .isDirectory
    | none => .error .notFound

/-- The directory of a name's last component, which has to be there, and that component. -/
def parent (t : Tree) (name : String) (parts : List String) : Except Fault Location := do
  let l ← parts.dropLast.foldlM t.advance (← t.start name)
  t.needDirectory l
  return l

/-- Write a file, in place of the one that is there. -/
def write (t : Tree) (name : String) (content : Bytes) : Except Error Tree :=
  named name do
    let parts := components name
    let l ← t.parent name parts
    match parts.getLast? with
    | none => .error .isDirectory
    | some component =>
      let l ← t.target l component
      if t.isDirectoryAt l then .error .isDirectory else return t.put l (.file content)

/-- Make a directory where nothing is yet; slashes behind its name do not count. -/
def makeDirectory (t : Tree) (name : String) : Except Error Tree :=
  named name do
    let l ← t.parent name (parts name)
    match (parts name).getLast? with
    | none => .error .alreadyThere
    | some component =>
      let l ← t.target l component
      if (t.entryAt? l).isSome then .error .alreadyThere else return t.put l .directory

/-- Make a directory unless it is there. -/
def ensureDirectory (t : Tree) (name : String) : Tree × Except Error Unit :=
  match t.makeDirectory name with
  | .ok t => (t, .ok ())
  | .error e => (t, if t.hasDirectory name then .ok () else .error e)

/-- A fault that does not matter. -/
def ignoring (fault : Fault) : Except Error Unit → Except Error Unit
  | .error e => if e.fault = fault then .ok () else .error e
  | .ok () => .ok ()

/-- Make a directory and those around it that are missing. -/
def makeDirectories (t : Tree) (name : List Char) : Tree × Except Error Unit :=
  let parts := splitDirectory name
  if _ : parts.1 = [] ∨ parts.2 = [] ∨ t.has (String.ofList parts.1) then
    t.ensureDirectory (String.ofList name)
  else
    let (t, made) := t.makeDirectories parts.1
    match ignoring .alreadyThere made with
    | .error e => (t, .error e)
    | .ok () => if parts.2 = ['.'] then (t, .ok ()) else t.ensureDirectory (String.ofList name)
termination_by name.length
decreasing_by
  rename_i h
  exact length_splitDirectory_lt fun e => h (.inr (.inl e))

end Tree

/-- What a compilation does with files; `makeDirectories` leaves a directory that is there alone. -/
class Store (m : Type → Type) where
  read : String → m (Except Error Bytes)
  makeDirectories : String → m (Except Error Unit)
  write : String → Bytes → m (Except Error Unit)

end SmlSchema.File
