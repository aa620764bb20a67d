import SmlSchema.File.System

/-! # Consoles, and worlds of files with a console

A program prints texts to two channels, and a console may refuse any of them. Programs work on every
monad that keeps files and has a console; a world in memory is one.
-/

namespace SmlSchema

inductive Channel where
  | out
  | err
deriving DecidableEq, Repr

/-- Why a console does not take a text: the system refuses it, or the text has a character that the
channel cannot show. -/
inductive PrintFault where
  | system (code : Nat) (text : String)
  | unencodable (message : String)
deriving DecidableEq, Repr

def PrintFault.message : PrintFault → String
  | .system code text => "[Errno " ++ toString code ++ "] " ++ text
  | .unencodable message => message

class Console (m : Type → Type) where
  print : Channel → String → m (Except PrintFault Unit)

/-! ## Worlds in memory -/

structure Message where
  channel : Channel
  text : String
deriving DecidableEq, Repr

/-- What was to be printed so far, with the faults, and what is answered to the next message. -/
structure Terminal where
  printed : List (Message × Option PrintFault) := []
  answer : List (Message × Option PrintFault) → Message → Option PrintFault := fun _ _ => none

def Terminal.add (t : Terminal) (message : Message) (fault : Option PrintFault) : Terminal :=
  { t with printed := t.printed ++ [(message, fault)] }

structure World where
  files : File.Tree
  terminal : Terminal := {}

/-- A failing write changes nothing. -/
instance : File.Store (StateM World) where
  read name := fun w => (w.files.read name, w)
  makeDirectories name := fun w =>
    let (t, made) := w.files.makeDirectories name.toList
    (made, { w with files := t })
  write name content := fun w =>
    match w.files.write name content with
    | .ok t => (.ok (), { w with files := t })
    | .error e => (.error e, w)

instance : Console (StateM World) where
  print channel text := fun w =>
    let fault := w.terminal.answer w.terminal.printed ⟨channel, text⟩
    let w := { w with terminal := w.terminal.add ⟨channel, text⟩ fault }
    match fault with
    | none => (.ok (), w)
    | some f => (.error f, w)

end SmlSchema
